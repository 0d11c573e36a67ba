import GridBridge.Proofs.Relay.Issuing

/-!
# How an issue ends

What a step of an issue is about is its own call, so every other call keeps its place in the registry,
its place on its loop and its slot (`Steps.undisturbed`). A call whose issue ended in an error is
nowhere any more (`gone_of_refused`); one whose issue returned is delivered like any other, also if
its completion came first (`delivers_of_accepted`).
-/

namespace GridBridge.Relay

open Protocol

variable {κ : Type}

/-! ## Other calls -/

/-- The relay has the same of a number as before: the same loop in the registry, and the same call
waiting under it with the same slot. -/
structure Undisturbed (id : CallId) (r r' : Relay κ) : Prop where
  registry : ∀ l, (id, l) ∈ r'.inFlight ↔ (id, l) ∈ r.inFlight
  waits : ∀ l e, e.id = id → (r'.WaitsOn l e ↔ r.WaitsOn l e)

theorem Undisturbed.refl (id : CallId) (r : Relay κ) : Undisturbed id r r :=
  ⟨fun _ => .rfl, fun _ _ _ => .rfl⟩

theorem Undisturbed.trans {id : CallId} {r r' r'' : Relay κ} (h : Undisturbed id r r')
    (h' : Undisturbed id r' r'') : Undisturbed id r r'' :=
  ⟨fun l => (h'.registry l).trans (h.registry l),
    fun l e hsame => (h'.waits l e hsame).trans (h.waits l e hsame)⟩

/-- A change of one loop that keeps the lists of waiting calls. -/
theorem undisturbed_modifyLoop (id : CallId) (r : Relay κ) (l : LoopId)
    {f : EventLoop κ → EventLoop κ} (hf : ∀ loop, (f loop).waiting = loop.waiting) :
    Undisturbed id r (r.modifyLoop l f) :=
  ⟨fun _ => .rfl, fun _ _ _ => waitsOn_modifyLoop_of_waiting hf⟩

/-- A signal takes its own call only. -/
theorem undisturbed_take {id id' : CallId} (r : Relay κ) (hother : id ≠ id') :
    Undisturbed id r (r.take id').2 :=
  ⟨fun _ => mem_inFlight_take.trans (and_iff_left hother), fun _ _ _ => .rfl⟩

/-- A step beside the issues leaves the calls alone that it is not about. -/
theorem Beside.undisturbed {t t' : Traffic κ} {owner : Option LoopId} {ids : List CallId}
    (hnext : Beside t owner ids t') (hfresh : ¬ t.relay.Alive t.relay.nextLoop) {id : CallId}
    (hother : id ∉ ids) : Undisturbed id t.relay t'.relay := by
  cases hnext with
  | openLoop => exact ⟨fun _ => .rfl, fun _ _ _ => waitsOn_openLoop hfresh⟩
  | dropLoop l =>
    rw [mem_waitingOn] at hother
    refine ⟨fun l' => mem_inFlight_dropLoop.trans (and_iff_left hother), ?_⟩
    rintro l' e rfl
    refine waitsOn_dropLoop.trans (and_iff_right_of_imp fun hwaits hsame => ?_)
    exact hother ⟨e, hsame ▸ hwaits, rfl⟩
  | ignore id' hunknown => exact undisturbed_take _ (by simpa using hother)
  | take id' payload l hknown => exact undisturbed_take _ (by simpa using hother)
  | fill c hmem hstage =>
    refine ⟨fun _ => .rfl, ?_⟩
    rintro l e rfl
    -- the slot that is filled is that of another call
    have hapart : e.id ≠ c.id := by simpa using hother
    rw [waitsOn_fill]
    constructor
    · rintro ⟨e₀, hwaits, hsame⟩
      split at hsame
      · rename_i hhere
        rw [hsame] at hapart
        exact absurd hhere.2 hapart
      · exact hsame ▸ hwaits
    · exact fun hwaits => ⟨e, hwaits, by rw [if_neg fun hhere => hapart hhere.2]⟩
  | push c hmem hstage => exact undisturbed_modifyLoop id _ _ (f := (·.push c.id)) fun _ => rfl
  | unpark c hmem hstage => exact undisturbed_modifyLoop id _ _ (f := (·.unpark)) fun _ => rfl
  | deliver l id' claimed after hfound =>
    obtain ⟨_, _, _, _, _, hsame⟩ := claimNext?_eq_some hfound
    refine ⟨fun _ => by rw [hsame]; exact .rfl, ?_⟩
    rintro l' e rfl
    have hapart : e.id ≠ id' := by simpa using hother
    exact (waitsOn_claimNext hfound).trans (and_iff_left fun _ => hapart)

/-! ## What becomes of a call -/

/-- A call is nowhere: not in the registry, not waited for, and its callback has not run. -/
structure Traffic.Gone (t : Traffic κ) (id : CallId) : Prop where
  registry : ∀ l, (id, l) ∉ t.relay.inFlight
  waits : ∀ l e, t.relay.WaitsOn l e → e.id ≠ id
  unrun : ∀ run ∈ t.runs, run.id ≠ id

/-- A completion that came for a call is delivered: once no signal for the call is on its way and its
number is in no queue, its callback has run with the payload of the first one. -/
def Traffic.Delivers (t : Traffic κ) (call : Issued κ) : Prop :=
  ∀ payload, t.firstTaken? call.id = some payload → t.relay.Alive call.loop →
    (∀ c ∈ t.underway, c.id ≠ call.id) → ¬ t.relay.ReadyOn call.loop call.id →
    ⟨call.id, call.loop, call.callback, payload⟩ ∈ t.runs

/-- So it is with every call that was issued in relay traffic. -/
theorem delivers_of_sound {t : Traffic κ} (hsound : Sound t) {call : Issued κ}
    (hmem : call ∈ t.issued) :
    t.Delivers call := by
  intro payload hfirst halive hidle hunready
  have htaken : (call.id, payload) ∈ t.taken := by
    obtain ⟨before, after, hsplit, -⟩ := List.lookup_eq_some_iff.mp hfirst
    simp [hsplit]
  by_cases hran : ∃ run ∈ t.runs, run.id = call.id
  · obtain ⟨⟨id, l, callback, payload'⟩, hran, rfl⟩ := hran
    obtain ⟨rfl, rfl⟩ := hsound.runIssued hran hmem rfl
    rw [hsound.firstTaken?_eq (hsound.runTaken hran), Option.some.injEq] at hfirst
    exact hfirst ▸ hran
  · push Not at hran
    obtain ⟨e, hwaits, hsame⟩ := hsound.issuedWaits hmem halive hran
    -- it waits, with its signal done, so its number would be in the queue
    cases hsound.standing hwaits with
    | inFlight hregistered _ _ =>
      exact absurd (List.mem_map_of_mem htaken) (hsame ▸ hsound.flightUntaken hregistered)
    | underway c hmem hid _ _ _ => exact absurd (hid.trans hsame) (hidle c hmem)
    | settled _ _ _ _ hready => exact absurd (hsame ▸ hready) hunready

/-- The payload of the first signal stays. -/
theorem Beside.firstTaken? {t t' : Traffic κ} {owner : Option LoopId} {ids : List CallId}
    (hnext : Beside t owner ids t') {id : CallId} {payload : Completion}
    (hfirst : t.firstTaken? id = some payload) : t'.firstTaken? id = some payload := by
  cases hnext with
  | take id' payload' l hknown =>
    unfold Traffic.firstTaken? at hfirst ⊢
    rw [List.lookup_append, hfirst]
    rfl
  | _ => exact hfirst

namespace Issuance

variable {f f' : Issuance κ} {ids : List CallId}

/-- Neither does a step of an issue touch another call. -/
theorem Step.undisturbed (hnext : Step f ids f') (hfresh : ¬ f.relay.Alive f.relay.nextLoop)
    {id : CallId} (hother : id ∉ ids) : Undisturbed id f.relay f'.relay := by
  -- each step changes the registry and the waiting calls at its own number only
  cases hnext with
  | beside owner ids t hnext hidle => exact hnext.undisturbed hfresh hother
  | register l callback halive =>
    refine ⟨fun _ => .rfl, ?_⟩
    rintro l' e rfl
    have hapart : e.id ≠ f.relay.nextCall := by simpa using hother
    refine (waitsOn_begin halive).trans (or_iff_left ?_)
    rintro ⟨-, rfl⟩
    exact hapart rfl
  | insert c hmem hprogress =>
    have hapart : id ≠ c.id := by simpa using hother
    refine ⟨fun l => List.mem_cons.trans (or_iff_right fun hsame => ?_), fun _ _ _ => .rfl⟩
    exact hapart (Prod.mk.inj hsame).1
  | accept c hmem hprogress => exact .refl id _
  | forget c hmem hprogress => exact undisturbed_take _ (by simpa using hother)
  | withdraw c found hmem hprogress =>
    refine ⟨fun _ => .rfl, ?_⟩
    rintro l e rfl
    have hapart : e.id ≠ c.id := by simpa using hother
    exact (waitsOn_withdraw (r := f.relay)).trans (and_iff_left fun _ => hapart)

/-- A loop that is opened has a number of its own. -/
theorem Reachable.fresh_nextLoop (hreach : Reachable f) (hbound : f.traffic.begun < 2 ^ 64) :
    ¬ f.relay.Alive f.relay.nextLoop := by
  obtain ⟨registry, hunder, -⟩ := hreach.refines hbound
  exact fun halive => Nat.lt_irrefl _ ((sound_of_reachable hunder hbound).loopsBelow halive)

theorem Steps.begun_le (hsteps : Steps f ids f') : f.traffic.begun ≤ f'.traffic.begun := by
  induction hsteps with
  | refl _ => exact Nat.le_refl _
  | head hnext _ ih => exact Nat.le_trans hnext.begun_le ih

/-- Steps leave the calls alone that none of them is about. -/
theorem Steps.undisturbed (hsteps : Steps f ids f') (hreach : Reachable f)
    (hbound : f'.traffic.begun < 2 ^ 64) {id : CallId} (hother : id ∉ ids) :
    Undisturbed id f.relay f'.relay := by
  induction hsteps with
  | refl f => exact .refl id f.relay
  | head hnext hrest ih =>
    rw [List.mem_append, not_or] at hother
    have hbound₀ := Nat.lt_of_le_of_lt (Nat.le_trans hnext.begun_le hrest.begun_le) hbound
    exact (hnext.undisturbed (hreach.fresh_nextLoop hbound₀) hother.1).trans
      (ih (hreach.step hnext) hbound hother.2)

/-! ## How an issue ends -/

theorem Step.accepted (hnext : Step f ids f') {call : Issued κ} (hmem : call ∈ f.accepted) :
    call ∈ f'.accepted := by
  cases hnext with
  | accept c hmem' hprogress => exact List.mem_cons_of_mem _ hmem
  | _ => exact hmem

theorem Step.refused (hnext : Step f ids f') {call : Issued κ} (hmem : call ∈ f.refused) :
    call ∈ f'.refused := by
  cases hnext with
  | withdraw c found hmem' hprogress => exact List.mem_cons_of_mem _ hmem
  | _ => exact hmem

theorem Steps.accepted (hsteps : Steps f ids f') {call : Issued κ} (hmem : call ∈ f.accepted) :
    call ∈ f'.accepted := by
  induction hsteps with
  | refl _ => exact hmem
  | head hnext _ ih => exact ih (hnext.accepted hmem)

theorem Steps.refused (hsteps : Steps f ids f') {call : Issued κ} (hmem : call ∈ f.refused) :
    call ∈ f'.refused := by
  induction hsteps with
  | refl _ => exact hmem
  | head hnext _ ih => exact ih (hnext.refused hmem)

theorem Step.firstTaken? (hnext : Step f ids f') {id : CallId} {payload : Completion}
    (hfirst : f.traffic.firstTaken? id = some payload) :
    f'.traffic.firstTaken? id = some payload := by
  cases hnext with
  | beside owner ids t hnext hidle => exact hnext.firstTaken? hfirst
  | _ => exact hfirst

theorem Steps.firstTaken? (hsteps : Steps f ids f') {id : CallId} {payload : Completion}
    (hfirst : f.traffic.firstTaken? id = some payload) :
    f'.traffic.firstTaken? id = some payload := by
  induction hsteps with
  | refl _ => exact hfirst
  | head hnext _ ih => exact ih (hnext.firstTaken? hfirst)

/-- A call whose issue ended in an error is nowhere, whatever signals come for it and whatever queue
its number is in. -/
theorem gone_of_refused (hreach : Reachable f) (hbound : f.traffic.begun < 2 ^ 64) {call : Issued κ}
    (hmem : call ∈ f.refused) : f.traffic.Gone call.id := by
  obtain ⟨registry, hunder, hrefines⟩ := hreach.refines hbound
  have hsound := sound_of_reachable hunder hbound
  have habsent := hrefines.refused hmem
  refine ⟨fun l hlisted => ?_, fun l e => habsent.waits, habsent.unrun⟩
  obtain ⟨e, hwaits, hsame⟩ := hsound.flightWaits (hrefines.sees hlisted)
  exact habsent.waits hwaits hsame

/-- A call whose issue returned is delivered, also if its completion came before that. -/
theorem delivers_of_accepted (hreach : Reachable f) (hbound : f.traffic.begun < 2 ^ 64)
    {call : Issued κ} (hmem : call ∈ f.accepted) : f.traffic.Delivers call := by
  obtain ⟨registry, hunder, hrefines⟩ := hreach.refines hbound
  exact delivers_of_sound (sound_of_reachable hunder hbound) (hrefines.accepted hmem).1

/-- Until a call is put in the registry it waits with an empty slot, and no early signal takes it. -/
theorem waits_of_registered (hreach : Reachable f) (hbound : f.traffic.begun < 2 ^ 64)
    {c : Issuing κ} (hmem : c ∈ f.issuing) (hprogress : c.progress = .registered) :
    f.relay.WaitsOn c.loop ⟨c.id, c.callback, none⟩ ∧ c.id ∉ f.traffic.taken.map (·.1) := by
  obtain ⟨registry, hunder, hrefines⟩ := hreach.refines hbound
  have hsound := sound_of_reachable hunder hbound
  have hshown : (c.id, c.loop) ∈ registry :=
    hrefines.flight.mpr (.inr ⟨c, hmem, .inl hprogress, rfl, rfl⟩)
  have huntaken := hsound.flightUntaken hshown
  obtain ⟨e, hwaits, hsame, hcallback⟩ := hrefines.waits hsound hmem
  refine ⟨?_, huntaken⟩
  rw [← hsame, ← hcallback]
  cases hsound.standing hwaits with
  | inFlight _ hslot _ => exact hslot ▸ hwaits
  | underway courier hmem hid _ _ _ =>
    exact absurd (hid.trans hsame ▸ List.mem_map_of_mem (hsound.courierTaken hmem)) huntaken
  | settled payload _ htaken _ _ => exact absurd (hsame ▸ List.mem_map_of_mem htaken) huntaken

/-- A call is begun in two steps. After them it is in the registry, and nothing has come for it. -/
theorem steps_begin (hreach : Reachable f) {l : LoopId} (callback : κ) (halive : f.relay.Alive l) :
    ∃ started, Steps f [f.relay.nextCall, f.relay.nextCall] started ∧
      started.relay = (f.relay.begin l callback).2 ∧
      started.traffic.begun = f.traffic.begun + 1 ∧
      ⟨⟨f.relay.nextCall, l, callback⟩, .calling⟩ ∈ started.issuing ∧
      (f.traffic.begun + 1 < 2 ^ 64 →
        (f.relay.nextCall, l) ∈ started.relay.inFlight ∧
        started.relay.WaitsOn l ⟨f.relay.nextCall, callback, none⟩ ∧
        f.relay.nextCall ∉ started.traffic.taken.map (·.1)) := by
  -- registering and listing are two steps, and the call is still being made after them
  let c : Issuing κ := ⟨⟨f.relay.nextCall, l, callback⟩, .registered⟩
  obtain ⟨enrolled, hregistered, hmem, hrelay, hbegun⟩ : ∃ enrolled, Step f [c.id] enrolled ∧
      c ∈ enrolled.issuing ∧ enrolled.relay = f.relay.enroll l callback ∧
      enrolled.traffic.begun = f.traffic.begun + 1 :=
    ⟨_, .register f l callback halive, List.mem_cons_self .., rfl, rfl⟩
  have hinserted := Step.insert enrolled c hmem rfl
  refine ⟨_, (Steps.single hregistered).trans (.single hinserted), ?_, hbegun, List.mem_cons_self ..,
    fun hbound => ?_⟩
  · show enrolled.relay.insert c.id l = _
    rw [hrelay]
    rfl
  · have hwaits := waits_of_registered (hreach.step hregistered) (hbegun ▸ hbound) hmem rfl
    exact ⟨List.mem_cons_self .., hwaits.1, hwaits.2⟩

end Issuance

end GridBridge.Relay
