import GridBridge.Proofs.Relay.Sound

/-!
# Relay traffic: every call is delivered once

Each step keeps the invariant `Sound` (`sound_step`), so it holds in every reachable state
(`sound_of_reachable`). The steps of a signal leave alone which calls wait and fill a slot at most
(`Refills`), so they have one argument in common (`Sound.of_refills`). The main statement,
`delivered_exactly_once`, reads off what it means for one issued call: its callback runs at most once,
on its own loop and with the payload of the first signal, and a completion that has arrived is neither
lost nor replaced.
-/

namespace GridBridge.Relay

open Protocol

variable {κ : Type} {t : Traffic κ}

/-- A call that a step does not touch stands where it stood. -/
theorem Standing.mono {t' : Traffic κ} {l : LoopId} {e : Waiting κ} (h : Standing t l e)
    (hflight : (e.id, l) ∈ t.relay.inFlight → (e.id, l) ∈ t'.relay.inFlight)
    (hunderway : ∀ c ∈ t.underway, c.id = e.id → c ∈ t'.underway)
    (hsettled : e.id ∈ t.settled → e.id ∈ t'.settled)
    (htaken : ∀ payload, (e.id, payload) ∈ t.taken → (e.id, payload) ∈ t'.taken)
    (hready : t'.relay.ReadyOn l e.id ↔ t.relay.ReadyOn l e.id) : Standing t' l e := by
  cases h with
  -- a call that stands in one of three places stands in the same place afterwards
  | inFlight hregistered hslot hunready =>
    exact .inFlight (hflight hregistered) hslot (mt hready.mp hunready)
  | underway c hmem hid hloop hslot hready' =>
    exact .underway c (hunderway c hmem hid) hid hloop hslot (hready.trans hready')
  | settled payload hmem htaken' hslot hready' =>
    exact .settled payload (hsettled hmem) (htaken payload htaken') hslot (hready.mpr hready')

/-! ## Loops come and go -/

/-- A new loop has a number of its own, and nothing waits on it. -/
theorem sound_openLoop (h : Sound t) : Sound { t with relay := t.relay.openLoop.2 } := by
  -- numbers of loops are not used again
  have hfresh : ¬ t.relay.Alive t.relay.nextLoop := fun ha => Nat.lt_irrefl _ (h.loopsBelow ha)
  have hwaits : ∀ {l e}, t.relay.openLoop.2.WaitsOn l e ↔ t.relay.WaitsOn l e :=
    waitsOn_openLoop hfresh
  have hready : ∀ {l id}, t.relay.openLoop.2.ReadyOn l id ↔ t.relay.ReadyOn l id :=
    readyOn_openLoop hfresh
  exact {
    nextCall := h.nextCall
    loopsBelow := by
      intro l hl
      show l < t.relay.nextLoop + 1
      rcases alive_openLoop.mp hl with rfl | hl
      · exact Nat.lt_succ_self _
      · exact Nat.lt_succ_of_lt (h.loopsBelow hl)
    issuedBelow := fun hcall => Nat.lt_succ_of_lt (h.issuedBelow hcall)
    waitsKnown := fun hw => h.waitsKnown (hwaits.mp hw)
    takenKnown := h.takenKnown
    issuedKnown := h.issuedKnown
    waitsOnce := fun hw hw' => h.waitsOnce (hwaits.mp hw) (hwaits.mp hw')
    waitsIssued := fun hw => h.waitsIssued (hwaits.mp hw)
    issuedWaits := by
      intro call hcall halive hruns
      -- the new loop has a number of its own, so it is none that a call was issued on
      have hne : call.loop ≠ t.relay.nextLoop := Nat.ne_of_lt (h.issuedBelow hcall)
      have halive' := (alive_openLoop.mp halive).resolve_left hne
      obtain ⟨e, hw, hid⟩ := h.issuedWaits hcall halive' hruns
      exact ⟨e, hwaits.mpr hw, hid⟩
    flightWaits := by
      intro id l hmem
      obtain ⟨e, hw, hid⟩ := h.flightWaits hmem
      exact ⟨e, hwaits.mpr hw, hid⟩
    flightUntaken := h.flightUntaken
    takenOnce := h.takenOnce
    courierTaken := h.courierTaken
    settledTaken := h.settledTaken
    oneSignal := h.oneSignal
    readyTaken := fun hr => h.readyTaken (hready.mp hr)
    standing := fun hw => (h.standing (hwaits.mp hw)).mono id (fun _ hc _ => hc) id
      (fun _ hp => hp) hready
    runTaken := h.runTaken
    runGone := fun hrun hw => h.runGone hrun (hwaits.mp hw)
    runOnce := h.runOnce
    runIssued := h.runIssued }

/-- A loop that is dropped takes with it what waits on it, also out of the registry. -/
theorem sound_dropLoop (h : Sound t) (l : LoopId) :
    Sound { t with relay := t.relay.dropLoop l } where
  nextCall := h.nextCall
  loopsBelow := fun hl => h.loopsBelow (alive_dropLoop.mp hl).2
  issuedBelow := h.issuedBelow
  waitsKnown := fun hw => h.waitsKnown (waitsOn_dropLoop.mp hw).2
  takenKnown := h.takenKnown
  issuedKnown := h.issuedKnown
  waitsOnce := fun hw hw' => h.waitsOnce (waitsOn_dropLoop.mp hw).2 (waitsOn_dropLoop.mp hw').2
  waitsIssued := fun hw => h.waitsIssued (waitsOn_dropLoop.mp hw).2
  issuedWaits := by
    intro call hcall halive hruns
    obtain ⟨hne, halive'⟩ := alive_dropLoop.mp halive
    obtain ⟨e, hw, hid⟩ := h.issuedWaits hcall halive' hruns
    exact ⟨e, waitsOn_dropLoop.mpr ⟨hne, hw⟩, hid⟩
  flightWaits := by
    intro id l' hmem
    obtain ⟨hmem', hkept⟩ := mem_inFlight_dropLoop.mp hmem
    obtain ⟨e, hw, hid⟩ := h.flightWaits hmem'
    refine ⟨e, waitsOn_dropLoop.mpr ⟨?_, hw⟩, hid⟩
    -- the loop takes what it waits for out of the registry when it goes
    rintro rfl
    exact hkept ⟨e, hw, hid⟩
  flightUntaken := fun hmem => h.flightUntaken (mem_inFlight_dropLoop.mp hmem).1
  takenOnce := h.takenOnce
  courierTaken := h.courierTaken
  settledTaken := h.settledTaken
  oneSignal := h.oneSignal
  readyTaken := fun hr => h.readyTaken (readyOn_dropLoop.mp hr).2
  standing := by
    intro l' e hw
    obtain ⟨hne, hw'⟩ := waitsOn_dropLoop.mp hw
    refine (h.standing hw').mono ?_ (fun _ hc _ => hc) id (fun _ hp => hp) ?_
    · intro hmem
      refine mem_inFlight_dropLoop.mpr ⟨hmem, ?_⟩
      -- a call waits on one loop only, and this one is not dropped
      rintro ⟨e', hdropped, hid⟩
      exact hne (h.waitsOnce hw' hdropped hid.symm).1
    · exact readyOn_dropLoop.trans (and_iff_right hne)
  runTaken := h.runTaken
  runGone := fun hrun hw => h.runGone hrun (waitsOn_dropLoop.mp hw).2
  runOnce := h.runOnce
  runIssued := h.runIssued

/-! ## Calls are issued and taken back -/

/-- A call that is issued has a number of its own. -/
theorem sound_issue (h : Sound t) {l : LoopId} (callback : κ) (halive₀ : t.relay.Alive l)
    (hbound : t.begun + 1 < 2 ^ 64) :
    Sound { t with
      relay := (t.relay.begin l callback).2
      begun := t.begun + 1
      issued := ⟨(t.relay.begin l callback).1, l, callback⟩ :: t.issued } := by
  have hnew : t.relay.nextCall.toNat = t.begun + 1 := h.toNat_nextCall hbound
  have hwaits : ∀ {l' e}, (t.relay.begin l callback).2.WaitsOn l' e ↔
      t.relay.WaitsOn l' e ∨ (l' = l ∧ e = { id := t.relay.nextCall, callback }) :=
    waitsOn_begin halive₀
  -- the new number is above every number in use
  have hunused : ∀ {id : CallId}, id.toNat ≤ t.begun → id ≠ t.relay.nextCall := h.ne_nextCall hbound
  have huntaken : t.relay.nextCall ∉ t.taken.map (·.1) := fun hmem =>
    hunused (h.takenKnown hmem) rfl
  have hunrun : ∀ run ∈ t.runs, run.id ≠ t.relay.nextCall := fun run hrun =>
    hunused (h.takenKnown (List.mem_map_of_mem (h.runTaken hrun)))
  exact {
    nextCall := by
      show t.relay.nextCall + 1 = UInt64.ofNat (t.begun + 1 + 1)
      rw [h.nextCall, UInt64.ofNat_add (t.begun + 1) 1]
      rfl
    loopsBelow := fun hl => h.loopsBelow (alive_begin.mp hl)
    issuedBelow := by
      intro call hcall
      rcases List.mem_cons.mp hcall with rfl | hcall
      · exact h.loopsBelow halive₀
      · exact h.issuedBelow hcall
    waitsKnown := by
      intro l' e hw
      rcases hwaits.mp hw with hw | ⟨_, rfl⟩
      · exact Nat.le_succ_of_le (h.waitsKnown hw)
      · exact Nat.le_of_eq hnew
    takenKnown := fun hmem => Nat.le_succ_of_le (h.takenKnown hmem)
    issuedKnown := by
      intro call hcall
      rcases List.mem_cons.mp hcall with rfl | hcall
      · exact Nat.le_of_eq hnew
      · exact Nat.le_succ_of_le (h.issuedKnown hcall)
    waitsOnce := by
      intro l₁ l₂ e₁ e₂ hw₁ hw₂ hid
      -- an old call never has the number of the new one
      rcases hwaits.mp hw₁ with hold₁ | ⟨rfl, rfl⟩ <;>
        rcases hwaits.mp hw₂ with hold₂ | ⟨rfl, rfl⟩
      · exact h.waitsOnce hold₁ hold₂ hid
      · exact absurd hid (hunused (h.waitsKnown hold₁))
      · exact absurd hid.symm (hunused (h.waitsKnown hold₂))
      · exact ⟨rfl, rfl⟩
    waitsIssued := by
      intro l' e call hw hcall hid
      rcases hwaits.mp hw with hw | ⟨rfl, rfl⟩ <;> rcases List.mem_cons.mp hcall with rfl | hcall
      · exact absurd hid.symm (hunused (h.waitsKnown hw))
      · exact h.waitsIssued hw hcall hid
      · exact ⟨rfl, rfl⟩
      · exact absurd hid (hunused (h.issuedKnown hcall))
    issuedWaits := by
      intro call hcall halive hruns
      rcases List.mem_cons.mp hcall with rfl | hcall
      · exact ⟨_, hwaits.mpr (.inr ⟨rfl, rfl⟩), rfl⟩
      · obtain ⟨e, hw, hid⟩ := h.issuedWaits hcall (alive_begin.mp halive) hruns
        exact ⟨e, hwaits.mpr (.inl hw), hid⟩
    flightWaits := by
      intro id l' hmem
      rcases List.mem_cons.mp hmem with heq | hmem
      · cases heq
        exact ⟨_, hwaits.mpr (.inr ⟨rfl, rfl⟩), rfl⟩
      · obtain ⟨e, hw, hid⟩ := h.flightWaits hmem
        exact ⟨e, hwaits.mpr (.inl hw), hid⟩
    flightUntaken := by
      intro id l' hmem
      rcases List.mem_cons.mp hmem with heq | hmem
      · cases heq
        exact huntaken
      · exact h.flightUntaken hmem
    takenOnce := h.takenOnce
    courierTaken := h.courierTaken
    settledTaken := h.settledTaken
    oneSignal := h.oneSignal
    readyTaken := fun hr => h.readyTaken (readyOn_begin.mp hr)
    standing := by
      intro l' e hw
      rcases hwaits.mp hw with hw | ⟨rfl, rfl⟩
      · exact (h.standing hw).mono (List.mem_cons_of_mem _) (fun _ hc _ => hc) id
          (fun _ hp => hp) readyOn_begin
      · refine .inFlight (List.mem_cons_self ..) rfl ?_
        exact fun hr => huntaken (h.readyTaken (readyOn_begin.mp hr))
    runTaken := h.runTaken
    runGone := by
      intro run l' e hrun hw
      rcases hwaits.mp hw with hw | ⟨_, rfl⟩
      · exact h.runGone hrun hw
      · exact (hunrun run hrun).symm
    runOnce := h.runOnce
    runIssued := by
      intro run call hrun hcall hid
      rcases List.mem_cons.mp hcall with rfl | hcall
      · exact absurd hid.symm (hunrun run hrun)
      · exact h.runIssued hrun hcall hid }

/-- A call that is taken back leaves no trace of its number. -/
theorem sound_fail (h : Sound t) {call : Issued κ} (hcall : call ∈ t.issued) :
    Sound { t with
      relay := t.relay.withdraw call.loop call.id
      issued := t.issued.filter (·.id != call.id) } := by
  have hwaits : ∀ {l e}, (t.relay.withdraw call.loop call.id).WaitsOn l e ↔
      t.relay.WaitsOn l e ∧ (l = call.loop → e.id ≠ call.id) := waitsOn_withdraw
  have hissued : ∀ {other : Issued κ}, other ∈ t.issued.filter (·.id != call.id) ↔
      other ∈ t.issued ∧ other.id ≠ call.id := by simp
  -- a call that still waits has another number: under this one it would wait on this loop
  have hother : ∀ {l e}, (t.relay.withdraw call.loop call.id).WaitsOn l e → e.id ≠ call.id := by
    intro l e hw hid
    obtain ⟨hw, hne⟩ := hwaits.mp hw
    exact hne (h.waitsIssued hw hcall hid.symm).1.symm hid
  exact {
    nextCall := h.nextCall
    loopsBelow := fun hl => h.loopsBelow (alive_withdraw.mp hl)
    issuedBelow := fun hmem => h.issuedBelow (hissued.mp hmem).1
    waitsKnown := fun hw => h.waitsKnown (hwaits.mp hw).1
    takenKnown := h.takenKnown
    issuedKnown := fun hmem => h.issuedKnown (hissued.mp hmem).1
    waitsOnce := fun hw hw' => h.waitsOnce (hwaits.mp hw).1 (hwaits.mp hw').1
    waitsIssued := fun hw hmem => h.waitsIssued (hwaits.mp hw).1 (hissued.mp hmem).1
    issuedWaits := by
      intro other hmem halive hruns
      obtain ⟨hmem, hne⟩ := hissued.mp hmem
      obtain ⟨e, hw, hid⟩ := h.issuedWaits hmem (alive_withdraw.mp halive) hruns
      exact ⟨e, hwaits.mpr ⟨hw, fun _ => hid ▸ hne⟩, hid⟩
    flightWaits := by
      intro id l hmem
      obtain ⟨hmem, hne⟩ := mem_inFlight_withdraw.mp hmem
      obtain ⟨e, hw, hid⟩ := h.flightWaits hmem
      exact ⟨e, hwaits.mpr ⟨hw, fun _ => hid ▸ hne⟩, hid⟩
    flightUntaken := fun hmem => h.flightUntaken (mem_inFlight_withdraw.mp hmem).1
    takenOnce := h.takenOnce
    courierTaken := h.courierTaken
    settledTaken := h.settledTaken
    oneSignal := h.oneSignal
    readyTaken := fun hr => h.readyTaken (readyOn_withdraw.mp hr)
    standing := fun hw => (h.standing (hwaits.mp hw).1).mono
      (fun hmem => mem_inFlight_withdraw.mpr ⟨hmem, hother hw⟩) (fun _ hc _ => hc) id
      (fun _ hp => hp) readyOn_withdraw
    runTaken := h.runTaken
    runGone := fun hrun hw => h.runGone hrun (hwaits.mp hw).1
    runOnce := h.runOnce
    runIssued := fun hrun hmem => h.runIssued hrun (hissued.mp hmem).1 }

/-! ## A signal goes its way -/

/-- A signal for a number that is not registered changes nothing. -/
theorem sound_ignore (h : Sound t) {id : CallId} (hunknown : (t.relay.take id).1 = none) :
    Sound { t with relay := (t.relay.take id).2 } := by
  rw [take_of_unknown hunknown]
  exact h

/-- The call that was in the registry stands with the signal that took it, the others where they
stood. -/
theorem standing_take (h : Sound t) {id : CallId} (payload : Completion) {l : LoopId}
    (hmem : (id, l) ∈ t.relay.inFlight) {l' : LoopId} {e : Waiting κ} (hw : t.relay.WaitsOn l' e) :
    Standing { t with
      relay := (t.relay.take id).2
      taken := t.taken ++ [(id, payload)]
      underway := ⟨id, l, payload, .taken⟩ :: t.underway } l' e := by
  by_cases hid : e.id = id
  · obtain ⟨call, hwaiting, hcall⟩ := h.flightWaits hmem
    obtain ⟨hl, _⟩ := h.waitsOnce hw hwaiting (hid.trans hcall.symm)
    obtain ⟨hempty, hunready⟩ := h.slot_of_inFlight hw (hid ▸ hmem)
    exact .underway ⟨id, l, payload, .taken⟩ (List.mem_cons_self ..) hid.symm hl.symm hempty
      (iff_of_false hunready (by simp))
  · exact (h.standing hw).mono (fun hother => mem_inFlight_take.mpr ⟨hother, hid⟩)
      (fun _ hc _ => List.mem_cons_of_mem _ hc) (fun hs => hs)
      (fun _ hp => List.mem_append_left _ hp) Iff.rfl

/-- A signal takes the entry out of the registry that its call has there. -/
theorem sound_take (h : Sound t) {id : CallId} (payload : Completion) {l : LoopId}
    (hknown : (t.relay.take id).1 = some l) :
    Sound { t with
      relay := (t.relay.take id).2
      taken := t.taken ++ [(id, payload)]
      underway := ⟨id, l, payload, .taken⟩ :: t.underway } := by
  have hmem : (id, l) ∈ t.relay.inFlight := mem_inFlight_of_take hknown
  -- what is registered was not taken yet, and a call waits for it
  have huntaken : id ∉ t.taken.map (·.1) := h.flightUntaken hmem
  obtain ⟨call, hwaiting, hcall⟩ := h.flightWaits hmem
  have htaken : ∀ {id'}, id' ∈ (t.taken ++ [(id, payload)]).map (·.1) ↔
      id' ∈ t.taken.map (·.1) ∨ id' = id := by simp
  exact {
    nextCall := h.nextCall
    loopsBelow := h.loopsBelow
    issuedBelow := h.issuedBelow
    waitsKnown := h.waitsKnown
    takenKnown := by
      intro id' hid'
      rcases htaken.mp hid' with hid' | rfl
      · exact h.takenKnown hid'
      · exact hcall ▸ h.waitsKnown hwaiting
    issuedKnown := h.issuedKnown
    waitsOnce := h.waitsOnce
    waitsIssued := h.waitsIssued
    issuedWaits := h.issuedWaits
    flightWaits := fun hother => h.flightWaits (mem_inFlight_take.mp hother).1
    flightUntaken := by
      intro id' l' hother hid'
      obtain ⟨hother, hne⟩ := mem_inFlight_take.mp hother
      rcases htaken.mp hid' with hid' | rfl
      · exact h.flightUntaken hother hid'
      · exact hne rfl
    takenOnce := by
      show ((t.taken ++ [(id, payload)]).map (·.1)).Nodup
      rw [List.map_append, List.nodup_append]
      -- its number was not taken before
      refine ⟨h.takenOnce, List.nodup_singleton _, ?_⟩
      rintro id₁ hid₁ _ hid₂ rfl
      rw [List.mem_singleton.mp hid₂] at hid₁
      exact huntaken hid₁
    courierTaken := by
      intro c hc
      rcases List.mem_cons.mp hc with rfl | hc
      · exact List.mem_append_right _ (List.mem_singleton.mpr rfl)
      · exact List.mem_append_left _ (h.courierTaken hc)
    settledTaken := fun hid' => htaken.mpr (.inl (h.settledTaken hid'))
    oneSignal := by
      -- a signal on its way under this number, or one that is done, would have taken it
      refine List.nodup_cons.mpr ⟨?_, h.oneSignal⟩
      intro hbusy
      rcases List.mem_append.mp hbusy with hbusy | hbusy
      · obtain ⟨c, hc, hid⟩ := List.mem_map.mp hbusy
        have hid : c.id = id := hid
        exact huntaken (hid ▸ List.mem_map_of_mem (h.courierTaken hc))
      · exact huntaken (h.settledTaken hbusy)
    readyTaken := fun hr => htaken.mpr (.inl (h.readyTaken hr))
    standing := standing_take h payload hmem
    runTaken := fun hrun => List.mem_append_left _ (h.runTaken hrun)
    runGone := h.runGone
    runOnce := h.runOnce
    runIssued := h.runIssued }

/-- A courier that goes on keeps its number, so the numbers of the signals stay what they were. -/
theorem oneSignal_advance (h : Sound t) {c : Courier} (hc : c ∈ t.underway) (stage : Stage) :
    ((t.advance c stage).map (·.id) ++ t.settled).Nodup := by
  have hperm : ((t.advance c stage).map (·.id)).Perm (t.underway.map (·.id)) :=
    ((List.perm_cons_erase hc).map (·.id)).symm
  exact (hperm.append_right t.settled).nodup_iff.mpr h.oneSignal

/-- The signals on their way are the one that has gone on, and the others. -/
theorem mem_advance {c c' : Courier} {stage : Stage} (h : c' ∈ t.advance c stage) :
    c' = { c with stage } ∨ c' ∈ t.underway := by
  rcases List.mem_cons.mp h with h | h
  · exact .inl h
  · exact .inr (List.mem_of_mem_erase h)

/-- Another one is still on its way. -/
theorem mem_advance_of_ne {c c' : Courier} {stage : Stage} (h : c' ∈ t.underway)
    (hne : c' ≠ c) : c' ∈ t.advance c stage :=
  List.mem_cons_of_mem _ ((List.mem_erase_of_ne hne).mpr h)

/-- Each of them carries what was taken. -/
theorem courierTaken_advance (h : Sound t) {c : Courier} (hc : c ∈ t.underway) (stage : Stage) :
    ∀ c' ∈ t.advance c stage, (c'.id, c'.payload) ∈ t.taken := by
  intro c' hc'
  rcases mem_advance hc' with rfl | hc'
  · exact h.courierTaken (c := c) hc
  · exact h.courierTaken hc'

/-- The same calls wait on the same loops, each with what `refill` makes of it: its number and its
callback stay, and only its slot may change. -/
structure Refills (refill : LoopId → Waiting κ → Waiting κ) (r r' : Relay κ) : Prop where
  nextCall : r'.nextCall = r.nextCall
  nextLoop : r'.nextLoop = r.nextLoop
  inFlight : r'.inFlight = r.inFlight
  alive : ∀ {l}, r'.Alive l ↔ r.Alive l
  waits : ∀ {l e}, r'.WaitsOn l e ↔ ∃ e₀, r.WaitsOn l e₀ ∧ e = refill l e₀
  id : ∀ l e, (refill l e).id = e.id
  callback : ∀ l e, (refill l e).callback = e.callback

/-- A change of one loop that leaves alone which calls wait there. -/
theorem refills_of_waiting (r : Relay κ) (l : LoopId) {f : EventLoop κ → EventLoop κ}
    (hf : ∀ loop, (f loop).waiting = loop.waiting) :
    Refills (fun _ e => e) r (r.modifyLoop l f) where
  nextCall := rfl
  nextLoop := rfl
  inFlight := rfl
  alive := alive_modifyLoop
  waits := by simp [waitsOn_modifyLoop_of_waiting hf]
  id _ _ := rfl
  callback _ _ := rfl

/-- A slot of one loop is filled. -/
theorem refills_fill (r : Relay κ) (l : LoopId) (id : CallId) (payload : Completion) :
    Refills (fun l' e =>
        if l' = l ∧ e.id = id then { e with slot := some (e.slot.getD payload) } else e)
      r (r.modifyLoop l (·.fill id payload)) where
  nextCall := rfl
  nextLoop := rfl
  inFlight := rfl
  alive := alive_modifyLoop
  waits := waitsOn_fill
  id _ _ := by split <;> rfl
  callback _ _ := by split <;> rfl

/-- **A step of a signal keeps the invariant** if it does so of the places that it touches, which are
its own stage, slots and queues. -/
theorem Sound.of_refills (h : Sound t) {refill : LoopId → Waiting κ → Waiting κ} {r : Relay κ}
    (hrefills : Refills refill t.relay r) {underway : List Courier} {settled : List CallId}
    (hcourierTaken : ∀ c ∈ underway, (c.id, c.payload) ∈ t.taken)
    (hsettledTaken : ∀ id ∈ settled, id ∈ t.taken.map (·.1))
    (honeSignal : (underway.map (·.id) ++ settled).Nodup)
    (hreadyTaken : ∀ l id, r.ReadyOn l id → id ∈ t.taken.map (·.1))
    (hstanding : ∀ l e₀, t.relay.WaitsOn l e₀ →
      Standing { t with relay := r, underway, settled } l (refill l e₀)) :
    Sound { t with relay := r, underway, settled } where
  nextCall := hrefills.nextCall.trans h.nextCall
  loopsBelow hl := hrefills.nextLoop ▸ h.loopsBelow (hrefills.alive.mp hl)
  issuedBelow hcall := hrefills.nextLoop ▸ h.issuedBelow hcall
  -- every waiting entry comes from one that waited before, with the same number and callback
  waitsKnown hw := by
    obtain ⟨e₀, hw₀, rfl⟩ := hrefills.waits.mp hw
    exact hrefills.id _ e₀ ▸ h.waitsKnown hw₀
  takenKnown := h.takenKnown
  issuedKnown := h.issuedKnown
  waitsOnce hw hw' hid := by
    obtain ⟨e₀, hw₀, rfl⟩ := hrefills.waits.mp hw
    obtain ⟨e₀', hw₀', rfl⟩ := hrefills.waits.mp hw'
    rw [hrefills.id, hrefills.id] at hid
    obtain ⟨rfl, rfl⟩ := h.waitsOnce hw₀ hw₀' hid
    exact ⟨rfl, rfl⟩
  waitsIssued hw hcall hid := by
    obtain ⟨e₀, hw₀, rfl⟩ := hrefills.waits.mp hw
    rw [hrefills.callback]
    exact h.waitsIssued hw₀ hcall (hid.trans (hrefills.id _ e₀))
  issuedWaits hcall hl hruns := by
    obtain ⟨e₀, hw₀, hid⟩ := h.issuedWaits hcall (hrefills.alive.mp hl) hruns
    exact ⟨_, hrefills.waits.mpr ⟨e₀, hw₀, rfl⟩, (hrefills.id _ e₀).trans hid⟩
  flightWaits hmem := by
    obtain ⟨e₀, hw₀, hid⟩ := h.flightWaits (hrefills.inFlight ▸ hmem)
    exact ⟨_, hrefills.waits.mpr ⟨e₀, hw₀, rfl⟩, (hrefills.id _ e₀).trans hid⟩
  flightUntaken hmem := h.flightUntaken (hrefills.inFlight ▸ hmem)
  takenOnce := h.takenOnce
  courierTaken := hcourierTaken _
  settledTaken := hsettledTaken _
  oneSignal := honeSignal
  readyTaken := hreadyTaken _ _
  standing hw := by
    obtain ⟨e₀, hw₀, rfl⟩ := hrefills.waits.mp hw
    exact hstanding _ e₀ hw₀
  runTaken := h.runTaken
  runGone hrun hw := by
    obtain ⟨e₀, hw₀, rfl⟩ := hrefills.waits.mp hw
    exact hrefills.id _ e₀ ▸ h.runGone hrun hw₀
  runOnce := h.runOnce
  runIssued := h.runIssued

/-- A call that the step of a signal is not for stands where it stood. -/
theorem Standing.beside {c : Courier} {l : LoopId} {e : Waiting κ} (h : Standing t l e)
    (hother : e.id ≠ c.id) {r : Relay κ} {underway : List Courier} {settled : List CallId}
    (hinFlight : r.inFlight = t.relay.inFlight)
    (hunderway : ∀ c' ∈ t.underway, c' ≠ c → c' ∈ underway)
    (hsettled : ∀ id ∈ t.settled, id ∈ settled)
    (hready : r.ReadyOn l e.id ↔ t.relay.ReadyOn l e.id) :
    Standing { t with relay := r, underway, settled } l e := by
  refine h.mono (fun hmem => hinFlight ▸ hmem) ?_ (hsettled _) (fun _ hp => hp) hready
  rintro c' hc' hid
  refine hunderway c' hc' ?_
  rintro rfl
  exact hother hid.symm

/-- A signal fills the slot of its call, which was empty. -/
theorem sound_fill (h : Sound t) {c : Courier} (hc : c ∈ t.underway) (hstage : c.stage = .taken) :
    Sound { t with
      relay := t.relay.modifyLoop c.loop (·.fill c.id c.payload)
      underway := t.advance c .filled } := by
  have hready : ∀ {l id}, (t.relay.modifyLoop c.loop (·.fill c.id c.payload)).ReadyOn l id ↔
      t.relay.ReadyOn l id := readyOn_modifyLoop_of_ready fun _ => rfl
  refine h.of_refills (refills_fill t.relay c.loop c.id c.payload)
    (courierTaken_advance h hc .filled) (fun _ => h.settledTaken) (oneSignal_advance h hc .filled)
    (fun _ _ hr => h.readyTaken (hready.mp hr)) fun l e hw => ?_
  by_cases hid : e.id = c.id
  -- the slot of the call that the signal is for was empty, and now it holds the payload
  · obtain ⟨hl, hslot, hpushed⟩ := h.standing_of_courier hc hw hid
    have hempty : e.slot = none := by
      rw [hslot, hstage]
      rfl
    have hunready : ¬ t.relay.ReadyOn l e.id := by
      rw [hpushed, hstage]
      decide
    rw [if_pos ⟨hl.symm, hid⟩, hempty]
    exact .underway { c with stage := .filled } (List.mem_cons_self ..) hid.symm hl rfl
      (iff_of_false (mt hready.mp hunready) (by simp))
  · rw [if_neg fun hhere => hid hhere.2]
    exact (h.standing hw).beside hid rfl (fun _ hc' => mem_advance_of_ne hc') (fun _ hs => hs) hready

/-- A signal makes its call ready, with the slot filled. -/
theorem sound_push (h : Sound t) {c : Courier} (hc : c ∈ t.underway) (hstage : c.stage = .filled) :
    Sound { t with
      relay := t.relay.modifyLoop c.loop (·.push c.id)
      underway := t.advance c .pushed } := by
  have hrefills := refills_of_waiting t.relay c.loop (f := (·.push c.id)) fun _ => rfl
  refine h.of_refills hrefills (courierTaken_advance h hc .pushed)
    (fun _ => h.settledTaken) (oneSignal_advance h hc .pushed) ?_ fun l e hw => ?_
  · intro l id hr
    rcases readyOn_push.mp hr with hr | ⟨_, rfl, _⟩
    · exact h.readyTaken hr
    · exact List.mem_map_of_mem (h.courierTaken hc)
  by_cases hid : e.id = c.id
  -- the call that the signal is for is ready now; others stand where they did
  · obtain ⟨hl, hslot, _⟩ := h.standing_of_courier hc hw hid
    refine .underway { c with stage := .pushed } (List.mem_cons_self ..) hid.symm hl ?_ ?_
    · rw [hslot, hstage]
      rfl
    · exact iff_of_true (readyOn_push.mpr (.inr ⟨hl.symm, hid, hl ▸ hw.alive⟩)) rfl
  · refine (h.standing hw).beside hid rfl (fun _ hc' => mem_advance_of_ne hc') (fun _ hs => hs) ?_
    rw [readyOn_push]
    exact or_iff_left fun hnew => hid hnew.2.1

/-- A signal that has woken the owner is done, and its call is settled. -/
theorem sound_unpark (h : Sound t) {c : Courier} (hc : c ∈ t.underway)
    (hstage : c.stage = .pushed) :
    Sound { t with
      relay := t.relay.modifyLoop c.loop (·.unpark)
      underway := t.underway.erase c
      settled := c.id :: t.settled } := by
  have hready : ∀ {l id}, (t.relay.modifyLoop c.loop (·.unpark)).ReadyOn l id ↔
      t.relay.ReadyOn l id := readyOn_modifyLoop_of_ready fun _ => rfl
  have htaken := h.courierTaken hc
  -- waking the owner changes neither slots nor queue
  have hrefills := refills_of_waiting t.relay c.loop (f := (·.unpark)) fun _ => rfl
  refine h.of_refills hrefills (fun _ hc' => h.courierTaken (List.mem_of_mem_erase hc')) ?_ ?_
    (fun _ _ hr => h.readyTaken (hready.mp hr)) fun l e hw => ?_
  · intro id hid
    rcases List.mem_cons.mp hid with rfl | hid
    · exact List.mem_map_of_mem htaken
    · exact h.settledTaken hid
  · -- the number moves from the signals on their way to those that are done
    have hperm : (t.underway.map (·.id) ++ t.settled).Perm
        ((t.underway.erase c).map (·.id) ++ (c.id :: t.settled)) :=
      (((List.perm_cons_erase hc).map (·.id)).append_right t.settled).trans
        List.perm_middle.symm
    exact hperm.nodup_iff.mp h.oneSignal
  by_cases hid : e.id = c.id
  -- the signal is done: its call is settled, with the slot filled and its number ready
  · obtain ⟨_, hslot, hpushed⟩ := h.standing_of_courier hc hw hid
    rw [hstage] at hslot
    exact .settled c.payload (hid ▸ List.mem_cons_self ..) (hid ▸ htaken) hslot
      (hready.mpr (hpushed.mpr hstage))
  · exact (h.standing hw).beside hid rfl (fun _ hc' hne => (List.mem_erase_of_ne hne).mpr hc')
      (fun _ => List.mem_cons_of_mem _) hready

/-! ## A loop delivers -/

/-- What a loop claims is a waiting call of its own, with the payload that its signal brought. -/
theorem claimed_sound (h : Sound t) {l : LoopId} {id : CallId} {claimed : Option (κ × Completion)}
    {after : Relay κ} (hnext : t.relay.claimNext? l = some (id, claimed, after)) {callback : κ}
    {payload : Completion} (hclaimed : claimed = some (callback, payload)) :
    ∃ e, t.relay.WaitsOn l e ∧ e.id = id ∧ e.callback = callback ∧ (id, payload) ∈ t.taken := by
  obtain ⟨loop, rest, hloop, hhead, rfl, _⟩ := claimNext?_eq_some hnext
  obtain ⟨e, hfind, hpair⟩ := Option.bind_eq_some_iff.mp hclaimed
  obtain ⟨payload', hslot, hpair⟩ := Option.map_eq_some_iff.mp hpair
  obtain ⟨rfl, rfl⟩ := Prod.mk.inj hpair
  -- a number is only claimed for a call that the loop waits for under it
  have hid : e.id = id := by simpa using List.find?_some hfind
  have hwaits : t.relay.WaitsOn l e := ⟨loop, hloop, List.mem_of_find?_eq_some hfind⟩
  have hready : t.relay.ReadyOn l e.id := ⟨loop, hloop, by simp [hhead, hid]⟩
  obtain ⟨payload, hslot', htaken⟩ := h.slot_of_ready hwaits hready
  rw [hslot, Option.some.injEq] at hslot'
  exact ⟨e, hwaits, hid, rfl, by rw [hslot', ← hid]; exact htaken⟩

/-- A ready number that its loop waits for has a callback to run: no wake comes without payload. -/
theorem claimed_of_waits (h : Sound t) {l : LoopId} {id : CallId}
    {claimed : Option (κ × Completion)} {after : Relay κ}
    (hnext : t.relay.claimNext? l = some (id, claimed, after)) {e : Waiting κ}
    (hwaits : t.relay.WaitsOn l e) (hid : e.id = id) :
    ∃ payload, claimed = some (e.callback, payload) := by
  obtain ⟨loop, rest, hloop, hhead, rfl, _⟩ := claimNext?_eq_some hnext
  have hlive := hwaits
  obtain ⟨loop', hloop', hmem⟩ := hlive
  rw [hloop, Option.some.injEq] at hloop'
  subst hloop'
  have hready : t.relay.ReadyOn l e.id := ⟨loop, hloop, by simp [hhead, hid]⟩
  obtain ⟨payload, hslot, _⟩ := h.slot_of_ready hwaits hready
  have hfound : (loop.find? id).isSome := List.find?_isSome.mpr ⟨e, hmem, by simpa using hid⟩
  -- the look-up in the loop finds the call itself, for no other waits under the number
  obtain ⟨e', hfind⟩ := Option.isSome_iff_exists.mp hfound
  have hid' : e'.id = id := by simpa using List.find?_some hfind
  have hwaits' : t.relay.WaitsOn l e' := ⟨loop, hloop, List.mem_of_find?_eq_some hfind⟩
  obtain ⟨_, rfl⟩ := h.waitsOnce hwaits hwaits' (hid.trans hid'.symm)
  exact ⟨payload, by rw [hfind, Option.bind_some, hslot, Option.map_some]⟩

/-- A run is one of before, or that of the call that was claimed. -/
theorem mem_runs_deliver (h : Sound t) {l : LoopId} {id : CallId} {claimed : Option (κ × Completion)}
    {after : Relay κ} (hnext : t.relay.claimNext? l = some (id, claimed, after)) {run : Run κ}
    (hrun : run ∈ t.runs ++ (claimed.map fun (callback, payload) =>
      (⟨id, l, callback, payload⟩ : Run κ)).toList) :
    run ∈ t.runs ∨ run.id = id ∧ run.loop = l ∧ (id, run.payload) ∈ t.taken ∧
      ∃ e, t.relay.WaitsOn l e ∧ e.id = id ∧ e.callback = run.callback := by
  -- the claim adds one run, or none if nothing waited under the number
  rcases List.mem_append.mp hrun with hrun | hrun
  · exact .inl hrun
  · obtain ⟨⟨callback, payload⟩, hclaimed, rfl⟩ :=
      Option.map_eq_some_iff.mp (Option.mem_toList.mp hrun)
    obtain ⟨e, hw, hid, hcallback, hp⟩ := claimed_sound h hnext hclaimed
    exact .inr ⟨rfl, rfl, hp, e, hw, hid, hcallback⟩

/-- No callback runs twice. -/
theorem runOnce_deliver (h : Sound t) {l : LoopId} {id : CallId} {claimed : Option (κ × Completion)}
    {after : Relay κ} (hnext : t.relay.claimNext? l = some (id, claimed, after)) :
    ((t.runs ++ (claimed.map fun (callback, payload) =>
      (⟨id, l, callback, payload⟩ : Run κ)).toList).map Run.id).Nodup := by
  cases hclaimed : claimed with
  | none => simpa using h.runOnce
  | some pair =>
    obtain ⟨callback, payload⟩ := pair
    obtain ⟨e, hw, hid, _⟩ := claimed_sound h hnext hclaimed
    -- the call still waited, so its callback had not run before
    rw [Option.map_some, Option.toList_some, List.map_append, List.nodup_append]
    refine ⟨h.runOnce, List.nodup_singleton _, ?_⟩
    rintro id₁ hid₁ _ hid₂ rfl
    obtain ⟨run, hrun, rfl⟩ := List.mem_map.mp hid₁
    exact h.runGone hrun hw (hid.trans (List.mem_singleton.mp hid₂).symm)

/-- What a loop delivers is what its signal brought, and the call is gone from then on. -/
theorem sound_deliver (h : Sound t) {l : LoopId} {id : CallId} {claimed : Option (κ × Completion)}
    {after : Relay κ} (hnext : t.relay.claimNext? l = some (id, claimed, after)) :
    Sound { t with
      relay := after
      runs := t.runs ++ (claimed.map fun (callback, payload) =>
        (⟨id, l, callback, payload⟩ : Run κ)).toList } := by
  have hwaits : ∀ {l' e}, after.WaitsOn l' e ↔ t.relay.WaitsOn l' e ∧ (l' = l → e.id ≠ id) :=
    waitsOn_claimNext hnext
  have hready : ∀ {l' id'}, after.ReadyOn l' id' → t.relay.ReadyOn l' id' :=
    readyOn_of_claimNext hnext
  obtain ⟨loop, rest, hloop, hhead, _, hafter⟩ := claimNext?_eq_some hnext
  have htaken : id ∈ t.taken.map (·.1) := h.readyTaken ⟨loop, hloop, by simp [hhead]⟩
  have hflight : ∀ {id' l'}, (id', l') ∈ after.inFlight ↔ (id', l') ∈ t.relay.inFlight := by
    intro id' l'
    rw [hafter]
    rfl
  exact {
    nextCall := by
      rw [hafter]
      exact h.nextCall
    loopsBelow := by
      intro l' hl'
      have hlt := h.loopsBelow ((alive_claimNext hnext).mp hl')
      rw [hafter]
      exact hlt
    issuedBelow := by
      intro call hcall
      have hlt := h.issuedBelow hcall
      rw [hafter]
      exact hlt
    waitsKnown := fun hw => h.waitsKnown (hwaits.mp hw).1
    takenKnown := h.takenKnown
    issuedKnown := h.issuedKnown
    waitsOnce := fun hw hw' => h.waitsOnce (hwaits.mp hw).1 (hwaits.mp hw').1
    waitsIssued := fun hw => h.waitsIssued (hwaits.mp hw).1
    issuedWaits := by
      intro call hcall hl hnorun
      obtain ⟨e, hw, hid⟩ := h.issuedWaits hcall ((alive_claimNext hnext).mp hl)
        fun run hrun => hnorun run (List.mem_append_left _ hrun)
      refine ⟨e, hwaits.mpr ⟨hw, ?_⟩, hid⟩
      -- had this step taken the call itself, its callback would have run
      rintro rfl heid
      obtain ⟨payload, hclaimed⟩ := claimed_of_waits h hnext hw heid
      refine hnorun ⟨id, call.loop, e.callback, payload⟩ ?_ (heid.symm.trans hid)
      rw [hclaimed]
      exact List.mem_append_right _ (List.mem_singleton.mpr rfl)
    flightWaits := by
      intro id' l' hmem
      obtain ⟨e, hw, hid⟩ := h.flightWaits (hflight.mp hmem)
      refine ⟨e, hwaits.mpr ⟨hw, ?_⟩, hid⟩
      rintro rfl heid
      -- a number in the queue was taken, so its call is not in flight any more
      rw [← hid, heid] at hmem
      exact h.flightUntaken (hflight.mp hmem) htaken
    flightUntaken := fun hmem => h.flightUntaken (hflight.mp hmem)
    takenOnce := h.takenOnce
    courierTaken := h.courierTaken
    settledTaken := h.settledTaken
    oneSignal := h.oneSignal
    readyTaken := fun hr => h.readyTaken (hready hr)
    standing := by
      intro l' e hw
      obtain ⟨hw₀, hne⟩ := hwaits.mp hw
      exact (h.standing hw₀).mono hflight.mpr (fun _ hc _ => hc) (fun hs => hs) (fun _ hp => hp)
        ⟨hready, fun hr => readyOn_claimNext_of_ne hnext hr hne⟩
    runTaken := by
      intro run hrun
      rcases mem_runs_deliver h hnext hrun with hrun | ⟨hid, _, hp, _⟩
      · exact h.runTaken hrun
      · exact hid ▸ hp
    runGone := by
      intro run l' e hrun hw hid
      obtain ⟨hw₀, hne⟩ := hwaits.mp hw
      rcases mem_runs_deliver h hnext hrun with hrun | ⟨hrid, _, _, e', hw', hid', _⟩
      -- a call that has just run is not waited for any more
      · exact h.runGone hrun hw₀ hid
      · obtain ⟨hl, _⟩ := h.waitsOnce hw₀ hw' (hid.trans (hrid.trans hid'.symm))
        exact hne hl (hid.trans hrid)
    runOnce := runOnce_deliver h hnext
    runIssued := by
      intro run call hrun hcall hid
      rcases mem_runs_deliver h hnext hrun with hrun | ⟨hrid, hrl, _, e, hw, heid, hcallback⟩
      · exact h.runIssued hrun hcall hid
      · obtain ⟨hl, hcb⟩ := h.waitsIssued hw hcall (hid.trans (hrid.trans heid.symm))
        exact ⟨hl.trans hrl.symm, hcb.trans hcallback⟩ }

/-! ## Every order of steps -/

/-- **Every step keeps the invariant**, while numbers last. -/
theorem sound_step {t' : Traffic κ} (h : Sound t) (hnext : Step t t')
    (hbound : t'.begun < 2 ^ 64) : Sound t' := by
  cases hnext with
  | openLoop => exact sound_openLoop h
  | dropLoop l => exact sound_dropLoop h l
  | issue l callback halive => exact sound_issue h callback halive hbound
  | fail call hmem => exact sound_fail h hmem
  | ignore id hunknown => exact sound_ignore h hunknown
  | take id payload l hknown => exact sound_take h payload hknown
  | fill c hmem hstage => exact sound_fill h hmem hstage
  | push c hmem hstage => exact sound_push h hmem hstage
  | unpark c hmem hstage => exact sound_unpark h hmem hstage
  | deliver l id claimed after hnext => exact sound_deliver h hnext

/-- The invariant holds in every reachable state, while numbers are not used up. -/
theorem sound_of_reachable (hreach : Reachable t) (hbound : t.begun < 2 ^ 64) : Sound t := by
  induction hreach with
  | fresh => exact sound_fresh
  | step _ hnext ih => exact sound_step (ih (Nat.lt_of_le_of_lt hnext.begun_le hbound)) hnext hbound

/-- **Exactly once.** In every state that some order of steps leads to, and for every call that was
issued and not taken back:

* its callback ran at most once, and if it ran, then on the loop that the call was issued on, with
  the payload of the first signal that took its number out of the registry;
* if a signal for it has done all four steps, its loop is alive and its callback has not run, then
  the call still waits on that loop, its slot holds the payload of that first signal and its number
  is in the ready queue;
* and a loop that takes a number off its queue and has no callback to run for it does not wait for
  that number: it is never woken without a payload.

The bound is the width of a call number. -/
theorem delivered_exactly_once (hreach : Reachable t) (hbound : t.begun < 2 ^ 64)
    {call : Issued κ} (hcall : call ∈ t.issued) :
    (t.runs.filter (·.id = call.id)).length ≤ 1 ∧
      (∀ run ∈ t.runs, run.id = call.id → run.loop = call.loop ∧ run.callback = call.callback ∧
        t.firstTaken? call.id = some run.payload) ∧
      (call.id ∈ t.settled → t.relay.Alive call.loop → (∀ run ∈ t.runs, run.id ≠ call.id) →
        ∃ payload, t.firstTaken? call.id = some payload ∧
          t.relay.WaitsOn call.loop ⟨call.id, call.callback, some payload⟩ ∧
          t.relay.ReadyOn call.loop call.id) ∧
      ∀ l id after, t.relay.claimNext? l = some (id, none, after) →
        ¬ ∃ e, t.relay.WaitsOn l e ∧ e.id = id := by
  have h : Sound t := sound_of_reachable hreach hbound
  refine ⟨?_, ?_, ?_, ?_⟩
  · rw [← List.countP_eq_length_filter]
    have hcount : (t.runs.map (·.id)).count call.id ≤ 1 := List.nodup_iff_count_le_one.mp h.runOnce _
    rw [List.count_eq_countP, List.countP_map] at hcount
    refine le_of_eq_of_le (List.countP_congr ?_) hcount
    intro run _
    simp
  · intro run hrun hid
    obtain ⟨hl, hcallback⟩ := h.runIssued hrun hcall hid.symm
    exact ⟨hl.symm, hcallback.symm, h.firstTaken?_eq (hid ▸ h.runTaken hrun)⟩
  · intro hsettled halive hruns
    obtain ⟨e, hw, hid⟩ := h.issuedWaits hcall halive hruns
    have hcallback := (h.waitsIssued hw hcall hid.symm).2
    -- the signal is done, so of the three ways to stand only the last is left
    cases h.standing hw with
    | inFlight hregistered _ _ =>
      exact absurd (h.settledTaken hsettled) (hid ▸ h.flightUntaken hregistered)
    | underway c hmem hcid _ _ _ =>
      exact absurd (hcid.trans hid) (h.courier_id_ne_settled hmem hsettled)
    | settled payload _ htaken hslot hready =>
      refine ⟨payload, h.firstTaken?_eq (hid ▸ htaken), ?_, hid ▸ hready⟩
      rw [hcallback, ← hid, ← hslot]
      exact hw
  · rintro l id after hnext ⟨e, hw, hid⟩
    obtain ⟨payload, hclaimed⟩ := claimed_of_waits h hnext hw hid
    exact absurd hclaimed nofun

/-- One call on one loop, whose completion has arrived twice and has not been delivered. -/
def arrivedTwice : Traffic Unit where
  relay := { nextCall := 2, nextLoop := 1,
             loops := [(0, { waiting := [⟨1, (), some ⟨resultOk, 7⟩⟩], ready := [1], token := true })] }
  begun := 1
  issued := [⟨1, 0, ()⟩]
  taken := [(1, ⟨resultOk, 7⟩)]
  settled := [1]

/-- The traffic in which a call is completed twice comes about by steps. -/
theorem reachable_arrivedTwice : Reachable arrivedTwice := by
  have hopen := Reachable.fresh.step (.openLoop ({} : Traffic Unit))
  have hissue := hopen.step (.issue _ 0 () rfl)
  have htake := hissue.step (.take _ 1 ⟨resultOk, 7⟩ 0 rfl)
  have hfill := htake.step (.fill _ ⟨1, 0, ⟨resultOk, 7⟩, .taken⟩ (List.mem_cons_self ..) rfl)
  have hpush := hfill.step (.push _ ⟨1, 0, ⟨resultOk, 7⟩, .filled⟩ (List.mem_cons_self ..) rfl)
  have hunpark := hpush.step (.unpark _ ⟨1, 0, ⟨resultOk, 7⟩, .pushed⟩ (List.mem_cons_self ..) rfl)
  exact hunpark.step (.ignore _ 1 rfl)

theorem arrivedTwice_delivered_once :
    arrivedTwice.firstTaken? 1 = some ⟨resultOk, 7⟩ ∧
      arrivedTwice.relay.WaitsOn 0 ⟨1, (), some ⟨resultOk, 7⟩⟩ ∧ arrivedTwice.relay.ReadyOn 0 1 := by
  have hcall : (⟨1, 0, ()⟩ : Issued Unit) ∈ arrivedTwice.issued := List.mem_cons_self ..
  obtain ⟨_, _, hwaits, _⟩ := delivered_exactly_once reachable_arrivedTwice (by decide) hcall
  obtain ⟨payload, hfirst, hw, hready⟩ := hwaits (List.mem_cons_self ..) rfl nofun
  obtain rfl : ⟨resultOk, 7⟩ = payload := Option.some.inj hfirst
  exact ⟨rfl, hw, hready⟩

end GridBridge.Relay
