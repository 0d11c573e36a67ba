import GridBridge.Proofs.Relay.Delivery
import GridBridge.Proofs.Relay.Disturb
import Mathlib.Data.List.Nodup

/-!
# Relay traffic: the registry is conserved

What `Sound` says of single calls adds up, call by call and loop by loop. **`Tidy`** is the rest of the
invariant, that nothing is listed twice and that every call that waits was issued; with it the calls
that a loop waits for are its calls in flight and its calls whose signal has come and that were not
delivered, each in one place (`waiting_perm`).

The calls of a loop do not depend on any other loop: one that waits can always be brought to its
callback (`deliverable`), and a signal whose loop was dropped finds nothing to change any more
(`late_signal`). **`registry_conserved`** puts this together.
-/

namespace GridBridge.Relay

open Protocol

variable {κ : Type} {t t' : Traffic κ}

/-! ## Nothing is listed twice -/

/-- The part of the invariant that counts. -/
structure Tidy (t : Traffic κ) : Prop where
  /-- Every call that waits was issued on the loop that it waits on. -/
  waitsIssued : ∀ {l e}, t.relay.WaitsOn l e → ∃ call ∈ t.issued, call.id = e.id ∧ call.loop = l
  waitingOnce : ∀ {l loop}, t.relay.loop? l = some loop → (loop.waiting.map (·.id)).Nodup
  flightOnce : (t.relay.inFlight.map (·.1)).Nodup
  issuedOnce : (t.issued.map (·.id)).Nodup
  courierBelow : ∀ {c}, c ∈ t.underway → c.loop < t.relay.nextLoop

/-- A relay that nobody has used lists nothing. -/
theorem tidy_fresh : Tidy ({} : Traffic κ) where
  waitsIssued h := by simp [WaitsOn, loop?] at h
  waitingOnce h := by simp [loop?] at h
  flightOnce := List.nodup_nil
  issuedOnce := List.nodup_nil
  courierBelow h := absurd h List.not_mem_nil

/-- A change of one loop that lists nothing twice keeps this of all loops. -/
theorem waitingOnce_modifyLoop {r : Relay κ} {l : LoopId} {f : EventLoop κ → EventLoop κ}
    (honce : ∀ {l loop}, r.loop? l = some loop → (loop.waiting.map (·.id)).Nodup)
    (hkeeps : ∀ loop, r.loop? l = some loop → ((f loop).waiting.map (·.id)).Nodup) {l' : LoopId}
    {loop : EventLoop κ} (hfound : (r.modifyLoop l f).loop? l' = some loop) :
    (loop.waiting.map (·.id)).Nodup := by
  rw [loop?_modifyLoop] at hfound
  split at hfound
  · rename_i hhere
    obtain ⟨loop₀, hfound₀, rfl⟩ := Option.map_eq_some_iff.mp hfound
    exact hkeeps loop₀ (hhere ▸ hfound₀)
  · exact honce hfound

/-- To withdraw a call lists no other one twice. -/
theorem nodup_withdraw {loop : EventLoop κ} {id : CallId} (h : (loop.waiting.map (·.id)).Nodup) :
    ((loop.withdraw id).waiting.map (·.id)).Nodup :=
  h.sublist (List.filter_sublist.map _)

/-- Filling a slot leaves alone which calls wait. -/
theorem ids_fill (loop : EventLoop κ) (id : CallId) (payload : Completion) :
    (loop.fill id payload).waiting.map (·.id) = loop.waiting.map (·.id) := by
  rw [EventLoop.fill, List.map_map]
  refine List.map_congr_left fun w _ => ?_
  by_cases hhere : w.id = id <;> simp [hhere]

/-- So the calls that wait on a loop are the same, as far as their numbers go. -/
theorem waitingOn_modifyLoop_of_ids {r : Relay κ} {l l' : LoopId} {f : EventLoop κ → EventLoop κ}
    (hf : ∀ loop, (f loop).waiting.map (·.id) = loop.waiting.map (·.id)) :
    (r.modifyLoop l f).waitingOn l' = r.waitingOn l' := by
  unfold waitingOn
  rw [loop?_modifyLoop]
  split
  · cases r.loop? l' with
    | none => rfl
    | some loop => simp [hf]
  · rfl

/-- A signal that goes on does so for the same loop. -/
theorem loop_of_mem_advance {c c' : Courier} {stage : Stage} (h : c' ∈ t.advance c stage) :
    c'.loop = c.loop ∨ c' ∈ t.underway := by
  rcases mem_advance h with rfl | h
  · exact .inl rfl
  · exact .inr h

namespace Tidy

/-- A new loop waits for nothing. -/
theorem openLoop (h : Tidy t) (hsound : Sound t) : Tidy { t with relay := t.relay.openLoop.2 } where
  waitsIssued hw := by
    refine h.waitsIssued ((waitsOn_openLoop fun halive => ?_).mp hw)
    exact absurd (hsound.loopsBelow halive) (Nat.lt_irrefl _)
  waitingOnce {l loop} hfound := by
    have hfound : t.relay.openLoop.2.loop? l = some loop := hfound
    rw [loop?_openLoop] at hfound
    split at hfound
    · obtain rfl := Option.some.inj hfound
      exact List.nodup_nil
    · exact h.waitingOnce hfound
  flightOnce := h.flightOnce
  issuedOnce := h.issuedOnce
  courierBelow hc := Nat.lt_succ_of_lt (h.courierBelow hc)

/-- A loop that goes takes its calls with it. -/
theorem dropLoop (h : Tidy t) (l : LoopId) : Tidy { t with relay := t.relay.dropLoop l } where
  waitsIssued hw := h.waitsIssued (waitsOn_dropLoop.mp hw).2
  waitingOnce {l' loop} hfound := by
    have hfound : (t.relay.dropLoop l).loop? l' = some loop := hfound
    rw [loop?_dropLoop] at hfound
    split at hfound
    · exact absurd hfound nofun
    · exact h.waitingOnce hfound
  flightOnce := h.flightOnce.sublist (List.filter_sublist.map _)
  issuedOnce := h.issuedOnce
  courierBelow := h.courierBelow

/-- The number of a new call is not listed anywhere. -/
theorem issue (h : Tidy t) (hsound : Sound t) {l : LoopId} (callback : κ) (halive : t.relay.Alive l)
    (hbound : t.begun + 1 < 2 ^ 64) : Tidy { t with
      relay := (t.relay.begin l callback).2
      begun := t.begun + 1
      issued := ⟨(t.relay.begin l callback).1, l, callback⟩ :: t.issued } := by
  have hunknown : ∀ {id : CallId}, id.toNat ≤ t.begun → id ≠ t.relay.nextCall :=
    hsound.ne_nextCall hbound
  exact {
    waitsIssued := by
      intro l' e hw
      rcases (waitsOn_begin halive).mp hw with hw | ⟨rfl, rfl⟩
      · obtain ⟨call, hcall, hknown⟩ := h.waitsIssued hw
        exact ⟨call, List.mem_cons_of_mem _ hcall, hknown⟩
      · exact ⟨_, List.mem_cons_self .., rfl, rfl⟩
    waitingOnce := by
      intro l' loop hfound
      refine waitingOnce_modifyLoop (f := (·.register t.relay.nextCall callback)) h.waitingOnce ?_
        hfound
      intro loop hfound
      rw [EventLoop.register, List.map_append, List.nodup_append]
      refine ⟨h.waitingOnce hfound, List.nodup_singleton _, ?_⟩
      -- a call that waits has a number that was given out
      rintro id hid _ hnew rfl
      obtain ⟨e, he, rfl⟩ := List.mem_map.mp hid
      exact hunknown (hsound.waitsKnown ⟨loop, hfound, he⟩) (List.mem_singleton.mp hnew)
    flightOnce := by
      refine List.nodup_cons.mpr ⟨fun hmem => ?_, h.flightOnce⟩
      obtain ⟨⟨id, l'⟩, hmem, rfl⟩ := List.mem_map.mp hmem
      obtain ⟨e, hw, hid⟩ := hsound.flightWaits hmem
      exact hunknown (hsound.waitsKnown hw) hid
    issuedOnce := by
      refine List.nodup_cons.mpr ⟨fun hmem => ?_, h.issuedOnce⟩
      obtain ⟨call, hcall, hid⟩ := List.mem_map.mp hmem
      exact hunknown (hsound.issuedKnown hcall) hid
    courierBelow := h.courierBelow }

/-- A call that is taken back leaves the list of those that were issued. -/
theorem fail (h : Tidy t) (hsound : Sound t) {call : Issued κ} (hcall : call ∈ t.issued) :
    Tidy { t with
      relay := t.relay.withdraw call.loop call.id
      issued := t.issued.filter (·.id != call.id) } where
  waitsIssued {l e} hw := by
    obtain ⟨hw, hother⟩ := waitsOn_withdraw.mp hw
    obtain ⟨call', hcall', hid, hloop⟩ := h.waitsIssued hw
    refine ⟨call', List.mem_filter.mpr ⟨hcall', bne_iff_ne.mpr fun hsame => ?_⟩, hid, hloop⟩
    -- a call that waits under the number is the one that is taken back, and waits on its loop
    have hhere := (hsound.waitsIssued hw hcall (hsame.symm.trans hid)).1
    exact hother hhere.symm (hid.symm.trans hsame)
  waitingOnce hfound :=
    waitingOnce_modifyLoop (r := { t.relay with inFlight := t.relay.inFlight.filter (·.1 != call.id) })
      (f := (·.withdraw call.id)) h.waitingOnce (fun _ hfound => nodup_withdraw (h.waitingOnce hfound))
      hfound
  flightOnce := h.flightOnce.sublist (List.filter_sublist.map _)
  issuedOnce := h.issuedOnce.sublist (List.filter_sublist.map _)
  courierBelow := h.courierBelow

/-- A signal takes a call out of the registry. Its loop is alive, so it is one that was opened. -/
theorem take (h : Tidy t) (hsound : Sound t) {id : CallId} (payload : Completion) {l : LoopId}
    (hknown : (t.relay.take id).1 = some l) : Tidy { t with
      relay := (t.relay.take id).2
      taken := t.taken ++ [(id, payload)]
      underway := ⟨id, l, payload, .taken⟩ :: t.underway } where
  waitsIssued := h.waitsIssued
  waitingOnce := h.waitingOnce
  flightOnce := h.flightOnce.sublist (List.filter_sublist.map _)
  issuedOnce := h.issuedOnce
  courierBelow hc := by
    rcases List.mem_cons.mp hc with rfl | hc
    · obtain ⟨e, hw, _⟩ := hsound.flightWaits (mem_inFlight_of_take hknown)
      exact hsound.loopsBelow hw.alive
    · exact h.courierBelow hc

/-- A step of a signal changes one loop, and which calls wait there stays the same. -/
theorem advance (h : Tidy t) {c : Courier} (hc : c ∈ t.underway) {f : EventLoop κ → EventLoop κ}
    (hsame : ∀ loop, (f loop).waiting.map (·.id) = loop.waiting.map (·.id)) {rest : List Courier}
    (hlater : ∀ c' ∈ rest, c'.loop = c.loop ∨ c' ∈ t.underway) (settled : List CallId) :
    Tidy { t with relay := t.relay.modifyLoop c.loop f, underway := rest, settled } where
  waitsIssued {l e} hw := by
    -- the call has waited there before under its number
    obtain ⟨e₀, hw₀, hid⟩ : ∃ e₀, t.relay.WaitsOn l e₀ ∧ e₀.id = e.id := by
      rcases waitsOn_modifyLoop.mp hw with hw
      split at hw
      · rename_i hl
        obtain ⟨loop, hfound, he⟩ := hw
        have hid : e.id ∈ loop.waiting.map (·.id) := hsame loop ▸ List.mem_map_of_mem he
        obtain ⟨e₀, he₀, hid⟩ := List.mem_map.mp hid
        exact ⟨e₀, ⟨loop, hl ▸ hfound, he₀⟩, hid⟩
      · exact ⟨e, hw, rfl⟩
    rw [← hid]
    exact h.waitsIssued hw₀
  waitingOnce hfound :=
    waitingOnce_modifyLoop h.waitingOnce (fun loop hfound => hsame loop ▸ h.waitingOnce hfound) hfound
  flightOnce := h.flightOnce
  issuedOnce := h.issuedOnce
  courierBelow {c'} hc' := by
    rcases hlater c' hc' with hloop | hc'
    · exact hloop.symm ▸ h.courierBelow hc
    · exact h.courierBelow hc'

/-- To deliver takes a call out of those that wait, if anything. -/
theorem deliver (h : Tidy t) {l : LoopId} {id : CallId} {claimed : Option (κ × Completion)}
    {after : Relay κ} (hnext : t.relay.claimNext? l = some (id, claimed, after))
    (runs : List (Run κ)) : Tidy { t with relay := after, runs } := by
  have hwaits : ∀ {l' e}, after.WaitsOn l' e → t.relay.WaitsOn l' e :=
    fun hw => ((waitsOn_claimNext hnext).mp hw).1
  obtain ⟨loop, rest, hloop, hhead, _, rfl⟩ := claimNext?_eq_some hnext
  have honce := h.waitingOnce hloop
  exact {
    waitsIssued := fun hw => h.waitsIssued (hwaits hw)
    waitingOnce := fun hfound => waitingOnce_modifyLoop h.waitingOnce
      (fun _ _ => @nodup_withdraw _ { loop with ready := rest } id honce) hfound
    flightOnce := h.flightOnce
    issuedOnce := h.issuedOnce
    courierBelow := h.courierBelow }

/-- **Each step keeps what counts.** -/
theorem step (h : Tidy t) (hsound : Sound t) (hnext : Step t t') (hbound : t'.begun < 2 ^ 64) :
    Tidy t' := by
  -- one case for each step; only an issue adds a number, and only a take, a failed issue or a drop
  -- takes one away
  cases hnext with
  | openLoop => exact h.openLoop hsound
  | dropLoop l => exact h.dropLoop l
  | issue l callback halive => exact h.issue hsound callback halive hbound
  | fail call hmem => exact h.fail hsound hmem
  | ignore id hunknown =>
    exact {
      waitsIssued := h.waitsIssued
      waitingOnce := h.waitingOnce
      flightOnce := h.flightOnce.sublist (List.filter_sublist.map _)
      issuedOnce := h.issuedOnce
      courierBelow := h.courierBelow }
  | take id payload l hknown => exact h.take hsound payload hknown
  | fill c hmem hstage =>
    exact h.advance hmem (fun loop => ids_fill loop c.id c.payload)
      (fun c' hc' => loop_of_mem_advance hc') t.settled
  | push c hmem hstage =>
    exact h.advance hmem (f := (·.push c.id)) (fun loop => rfl)
      (fun c' hc' => loop_of_mem_advance hc') t.settled
  | unpark c hmem hstage =>
    exact h.advance hmem (f := (·.unpark)) (fun loop => rfl)
      (fun c' hc' => .inr (List.mem_of_mem_erase hc')) _
  | deliver l id claimed after hnext => exact h.deliver hnext _

end Tidy

/-- So it holds after any steps, while numbers last. -/
theorem tidy_of_reachable (hreach : Reachable t) (hbound : t.begun < 2 ^ 64) : Tidy t := by
  induction hreach with
  | fresh => exact tidy_fresh
  | step hreach hnext ih =>
    have hbound₀ := Nat.lt_of_le_of_lt hnext.begun_le hbound
    exact (ih hbound₀).step (sound_of_reachable hreach hbound₀) hnext hbound

/-! ## The calls of a loop -/

/-- The numbers of the calls in flight on a loop. -/
def Traffic.inFlightOn (t : Traffic κ) (l : LoopId) : List CallId :=
  (t.relay.inFlight.filter (·.2 = l)).map (·.1)

/-- The numbers of the calls that were issued on a loop, that a signal has come for and whose callback
has not run. -/
def Traffic.undelivered (t : Traffic κ) (l : LoopId) : List CallId :=
  (t.issued.filter fun call => call.loop = l ∧ call.id ∈ t.taken.map (·.1) ∧
    call.id ∉ t.runs.map (·.id)).map (·.id)

/-- The calls in flight on a loop are its entries of the registry. -/
theorem mem_inFlightOn {l : LoopId} {id : CallId} :
    id ∈ t.inFlightOn l ↔ (id, l) ∈ t.relay.inFlight := by
  simp [Traffic.inFlightOn]

/-- An undelivered call was issued and taken, and its callback has not run. -/
theorem mem_undelivered {l : LoopId} {id : CallId} : id ∈ t.undelivered l ↔
    (∃ call ∈ t.issued, call.id = id ∧ call.loop = l) ∧ id ∈ t.taken.map (·.1) ∧
      id ∉ t.runs.map (·.id) := by
  unfold Traffic.undelivered
  rw [List.mem_map]
  constructor
  · rintro ⟨call, hcall, rfl⟩
    obtain ⟨hcall, hkind⟩ := List.mem_filter.mp hcall
    obtain ⟨hloop, htaken, hidle⟩ := of_decide_eq_true hkind
    exact ⟨⟨call, hcall, rfl, hloop⟩, htaken, hidle⟩
  · rintro ⟨⟨call, hcall, rfl, hloop⟩, htaken, hidle⟩
    exact ⟨call, List.mem_filter.mpr ⟨hcall, decide_eq_true ⟨hloop, htaken, hidle⟩⟩, rfl⟩

/-- A call is in the registry from when it is issued until a signal takes it or its loop is dropped. -/
theorem mem_inFlight_iff (hsound : Sound t) (htidy : Tidy t) {id : CallId} {l : LoopId} :
    (id, l) ∈ t.relay.inFlight ↔
      (∃ call ∈ t.issued, call.id = id ∧ call.loop = l) ∧ id ∉ t.taken.map (·.1) ∧
        t.relay.Alive l := by
  constructor
  · intro hmem
    obtain ⟨e, hw, rfl⟩ := hsound.flightWaits hmem
    exact ⟨htidy.waitsIssued hw, hsound.flightUntaken hmem, hw.alive⟩
  · rintro ⟨⟨call, hcall, rfl, rfl⟩, huntaken, halive⟩
    -- its callback would have had to be taken first
    obtain ⟨e, hw, hid⟩ := hsound.issuedWaits hcall halive fun run hrun hsame =>
      huntaken (hsame ▸ List.mem_map_of_mem (hsound.runTaken hrun))
    cases hsound.standing hw with
    | inFlight hregistered _ _ => exact hid ▸ hregistered
    | underway c hc hsame _ _ _ =>
      exact absurd (List.mem_map_of_mem (hsound.courierTaken hc)) (hsame.trans hid ▸ huntaken)
    | settled payload _ htaken _ _ => exact absurd (hid ▸ List.mem_map_of_mem htaken) huntaken

/-- What a loop waits for is in flight, or a signal has come for it and it is not delivered. -/
theorem mem_waiting_iff (hsound : Sound t) (htidy : Tidy t) {l : LoopId} {loop : EventLoop κ}
    (hfound : t.relay.loop? l = some loop) {id : CallId} :
    id ∈ loop.waiting.map (·.id) ↔ id ∈ t.inFlightOn l ∨ id ∈ t.undelivered l := by
  have hhere : ∀ {e}, t.relay.WaitsOn l e → e ∈ loop.waiting := by
    rintro e ⟨loop', hfound', he⟩
    rw [hfound, Option.some.injEq] at hfound'
    exact hfound' ▸ he
  rw [List.mem_map, mem_inFlightOn, mem_undelivered]
  constructor
  · rintro ⟨e, he, rfl⟩
    have hw : t.relay.WaitsOn l e := ⟨loop, hfound, he⟩
    -- its callback has not run, for it waits
    have hidle : e.id ∉ t.runs.map (·.id) := fun hran => by
      obtain ⟨run, hrun, hid⟩ := List.mem_map.mp hran
      exact hsound.runGone hrun hw hid.symm
    cases hsound.standing hw with
    | inFlight hregistered _ _ => exact .inl hregistered
    | underway c hmem hsame _ _ _ =>
      exact .inr ⟨htidy.waitsIssued hw, hsame ▸ List.mem_map_of_mem (hsound.courierTaken hmem), hidle⟩
    | settled payload _ htaken _ _ =>
      exact .inr ⟨htidy.waitsIssued hw, List.mem_map_of_mem htaken, hidle⟩
  · rintro (hregistered | ⟨⟨call, hcall, rfl, rfl⟩, _, hidle⟩)
    · obtain ⟨e, hw, hid⟩ := hsound.flightWaits hregistered
      exact ⟨e, hhere hw, hid⟩
    · have halive : t.relay.Alive call.loop := by
        rw [Alive, hfound]
        rfl
      obtain ⟨e, hw, hid⟩ := hsound.issuedWaits hcall halive fun run hrun hsame =>
        hidle (hsame ▸ List.mem_map_of_mem hrun)
      exact ⟨e, hhere hw, hid⟩

/-- No call is both in flight and undelivered. -/
theorem nodup_calls (hsound : Sound t) (htidy : Tidy t) (l : LoopId) :
    (t.inFlightOn l ++ t.undelivered l).Nodup := by
  refine List.nodup_append.mpr ⟨htidy.flightOnce.sublist (List.filter_sublist.map _),
    htidy.issuedOnce.sublist (List.filter_sublist.map _), ?_⟩
  -- what is in flight was not taken, and what is undelivered was
  rintro id hregistered _ hsignalled rfl
  exact hsound.flightUntaken (mem_inFlightOn.mp hregistered) (mem_undelivered.mp hsignalled).2.1

/-- The calls that a loop waits for are its calls in flight and those that are not delivered yet. -/
theorem waiting_perm (hsound : Sound t) (htidy : Tidy t) {l : LoopId} {loop : EventLoop κ}
    (hfound : t.relay.loop? l = some loop) :
    (loop.waiting.map (·.id)).Perm (t.inFlightOn l ++ t.undelivered l) := by
  refine (List.perm_ext_iff_of_nodup (htidy.waitingOnce hfound) (nodup_calls hsound htidy l)).mpr ?_
  -- both lists have no number twice, so they are compared by their members
  intro id
  rw [List.mem_append]
  exact mem_waiting_iff hsound htidy hfound

/-! ## Signals and loops -/

/-- A signal finds the loop that the registry names. -/
theorem take_of_inFlight (hsound : Sound t) {id : CallId} {l : LoopId}
    (hregistered : (id, l) ∈ t.relay.inFlight) : (t.relay.take id).1 = some l := by
  cases htake : (t.relay.take id).1 with
  | none =>
    have habsent := List.lookup_eq_none_iff.mp (show t.relay.inFlight.lookup id = none from htake)
    exact absurd (habsent _ hregistered) (by simp)
  -- one number waits on one loop only, so the registry has no other entry for it
  | some l' =>
    obtain ⟨e, hw, hid⟩ := hsound.flightWaits hregistered
    obtain ⟨e', hw', hid'⟩ := hsound.flightWaits (mem_inFlight_of_take htake)
    rw [(hsound.waitsOnce hw hw' (hid.trans hid'.symm)).1]

/-- A signal for a call in flight fills the slot that the loop of the call has for it, and puts its
number in that loop's queue. -/
theorem signal_lands (hsound : Sound t) {e : Waiting κ} {l : LoopId} (hw : t.relay.WaitsOn l e)
    (hregistered : (e.id, l) ∈ t.relay.inFlight) (payload : Completion) :
    (t.relay.signal e.id payload).WaitsOn l { e with slot := some payload } ∧
      (t.relay.signal e.id payload).ReadyOn l e.id := by
  obtain ⟨hempty, -⟩ := hsound.slot_of_inFlight hw hregistered
  rw [signal_of_known (take_of_inFlight hsound hregistered)]
  constructor
  · refine (waitsOn_modifyLoop_of_waiting (f := (·.unpark)) fun _ => rfl).mpr ?_
    refine (waitsOn_modifyLoop_of_waiting (f := (·.push e.id)) fun _ => rfl).mpr ?_
    refine waitsOn_fill.mpr ⟨e, hw, ?_⟩
    rw [if_pos ⟨rfl, rfl⟩, hempty]
    rfl
  · refine (readyOn_modifyLoop_of_ready (f := (·.unpark)) fun _ => rfl).mpr ?_
    exact readyOn_push.mpr (.inr ⟨rfl, rfl, alive_modifyLoop.mpr hw.alive⟩)

/-- Dropping a loop takes exactly its own calls out of the registry. -/
theorem mem_inFlight_dropLoop_iff (hsound : Sound t) {l l' : LoopId} {id : CallId} :
    (id, l') ∈ (t.relay.dropLoop l).inFlight ↔ (id, l') ∈ t.relay.inFlight ∧ l' ≠ l := by
  rw [mem_inFlight_dropLoop]
  refine and_congr_right fun hregistered => ?_
  obtain ⟨e, hw, hid⟩ := hsound.flightWaits hregistered
  constructor
  · rintro hother rfl
    exact hother ⟨e, hw, hid⟩
  · rintro hother ⟨e', hw', hid'⟩
    exact hother (hsound.waitsOnce hw hw' (hid.trans hid'.symm)).1

/-- A loop that was dropped does not come back. -/
theorem not_alive_of_steps {l : LoopId} (hsteps : Steps t t') (hgone : ¬ t.relay.Alive l)
    (hknown : l < t.relay.nextLoop) : ¬ t'.relay.Alive l := by
  induction hsteps with
  | refl _ => exact hgone
  | head hnext _ ih =>
    -- numbers of loops are not used again, so only opening has to be looked at
    cases hnext with
    | openLoop =>
      refine ih (fun halive => ?_) (Nat.lt_succ_of_lt hknown)
      rcases alive_openLoop.mp halive with rfl | halive
      · exact Nat.lt_irrefl _ hknown
      · exact hgone halive
    | dropLoop l' => exact ih (fun halive => hgone (alive_dropLoop.mp halive).2) hknown
    | issue l' callback halive' => exact ih (fun halive => hgone (alive_begin.mp halive)) hknown
    | fail call hmem => exact ih (fun halive => hgone (alive_withdraw.mp halive)) hknown
    | ignore id hunknown => exact ih hgone hknown
    | take id payload l' hfound => exact ih hgone hknown
    | fill c hmem hstage => exact ih (fun halive => hgone (alive_modifyLoop.mp halive)) hknown
    | push c hmem hstage => exact ih (fun halive => hgone (alive_modifyLoop.mp halive)) hknown
    | unpark c hmem hstage => exact ih (fun halive => hgone (alive_modifyLoop.mp halive)) hknown
    | deliver l' id claimed after hnext =>
      refine ih (fun halive => hgone ((alive_claimNext hnext).mp halive)) ?_
      obtain ⟨_, _, _, _, _, rfl⟩ := claimNext?_eq_some hnext
      exact hknown

/-- A signal that took its call before the loop was dropped changes nothing when it goes on. -/
theorem late_signal (htidy : Tidy t) {c : Courier} (hc : c ∈ t.underway)
    (hgone : ¬ t.relay.Alive c.loop) (hsteps : Steps t t') (f : EventLoop κ → EventLoop κ) :
    t'.relay.modifyLoop c.loop f = t'.relay := by
  have hgone' := not_alive_of_steps hsteps hgone (htidy.courierBelow hc)
  have habsent : t'.relay.loops.lookup c.loop = none := Option.not_isSome_iff_eq_none.mp hgone'
  -- there is no loop of this number to change
  unfold modifyLoop
  rw [modify_of_absent fun entry hentry hsame => ?_]
  have hother := List.lookup_eq_none_iff.mp habsent entry hentry
  simp [hsame] at hother

/-! ## Every call that waits can be delivered -/

/-- There are steps after which the callback of the call has run on its loop. -/
def Deliverable (t : Traffic κ) (l : LoopId) (e : Waiting κ) : Prop :=
  ∃ t', Steps t t' ∧ ∃ run ∈ t'.runs, run.id = e.id ∧ run.loop = l ∧ run.callback = e.callback

/-- A loop with numbers in its queue can take the next. -/
theorem claimNext?_of_ready {r : Relay κ} {l : LoopId} {loop : EventLoop κ} {id : CallId}
    {rest : List CallId} (hfound : r.loop? l = some loop) (hready : loop.ready = id :: rest) :
    ∃ claimed, r.claimNext? l = some (id, claimed,
      r.modifyLoop l fun _ => ({ loop with ready := rest } : EventLoop κ).withdraw id) := by
  unfold claimNext? EventLoop.pop?
  rw [hfound, Option.bind_some, hready]
  exact ⟨_, rfl⟩

/-- What can be delivered after a step can be delivered before it. -/
theorem Deliverable.after {l : LoopId} {e : Waiting κ} (hnext : Step t t')
    (h : Deliverable t' l e) : Deliverable t l e := by
  obtain ⟨t'', hsteps, hran⟩ := h
  exact ⟨t'', .head hnext hsteps, hran⟩

/-- A call whose number is at the head of the queue is delivered next. -/
theorem deliverable_of_head (hsound : Sound t) {l : LoopId} {e : Waiting κ} {loop : EventLoop κ}
    {rest : List CallId} (hfound : t.relay.loop? l = some loop) (hw : t.relay.WaitsOn l e)
    (hready : loop.ready = e.id :: rest) : Deliverable t l e := by
  obtain ⟨claimed, hnext⟩ := claimNext?_of_ready hfound hready
  obtain ⟨payload, rfl⟩ := claimed_of_waits hsound hnext hw rfl
  refine ⟨_, .head (.deliver t l e.id _ _ hnext) (.refl _), ?_⟩
  exact ⟨⟨e.id, l, e.callback, payload⟩, by simp, rfl, rfl, rfl⟩

/-- A number in the queue is reached by delivering what is in front of it, by induction on how much
that is. -/
theorem deliverable_of_queue (hsound : Sound t) {l : LoopId} {e : Waiting κ} {loop : EventLoop κ}
    {front rest : List CallId} (hfound : t.relay.loop? l = some loop) (hw : t.relay.WaitsOn l e)
    (hready : loop.ready = front ++ e.id :: rest) : Deliverable t l e := by
  induction front generalizing t loop with
  | nil => exact deliverable_of_head hsound hfound hw hready
  | cons id front ih =>
    by_cases hsame : id = e.id
    · exact deliverable_of_head hsound hfound hw (hsame ▸ hready)
    · obtain ⟨claimed, hnext⟩ := claimNext?_of_ready hfound hready
      -- the number in front is another one, so the call still waits behind it
      let tail : EventLoop κ :=
        ({ loop with ready := front ++ e.id :: rest } : EventLoop κ).withdraw id
      have hfound' : (t.relay.modifyLoop l fun _ => tail).loop? l = some tail := by
        rw [loop?_modifyLoop, if_pos rfl, hfound]
        rfl
      have hw' := (waitsOn_claimNext hnext).mpr ⟨hw, fun _ => Ne.symm hsame⟩
      exact .after (.deliver t l id claimed _ hnext) (ih (sound_deliver hsound hnext) hfound' hw' rfl)

/-- What is in the queue can be delivered. -/
theorem deliverable_of_ready (hsound : Sound t) {l : LoopId} {e : Waiting κ}
    (hw : t.relay.WaitsOn l e) (hready : t.relay.ReadyOn l e.id) : Deliverable t l e := by
  obtain ⟨loop, hfound, hmem⟩ := hready
  obtain ⟨front, rest, hready⟩ := List.append_of_mem hmem
  exact deliverable_of_queue hsound hfound hw hready

/-- A signal that has filled the slot goes on to put the number in the queue. -/
theorem deliverable_of_filled (hsound : Sound t) {c : Courier} {e : Waiting κ}
    (hc : c ∈ t.underway) (hstage : c.stage = .filled) (hw : t.relay.WaitsOn c.loop e)
    (hsame : e.id = c.id) : Deliverable t c.loop e := by
  refine .after (.push t c hc hstage) (deliverable_of_ready (sound_push hsound hc hstage) ?_ ?_)
  · exact (waitsOn_modifyLoop_of_waiting (f := (·.push c.id)) fun _ => rfl).mpr hw
  · exact readyOn_push.mpr (.inr ⟨rfl, hsame, hw.alive⟩)

/-- One that has taken the call goes on to fill its slot. -/
theorem deliverable_of_taken (hsound : Sound t) {c : Courier} {e : Waiting κ}
    (hc : c ∈ t.underway) (hstage : c.stage = .taken) (hw : t.relay.WaitsOn c.loop e)
    (hsame : e.id = c.id) : Deliverable t c.loop e := by
  refine .after (.fill t c hc hstage) ?_
  have hfilled : (t.relay.modifyLoop c.loop (·.fill c.id c.payload)).WaitsOn c.loop
      { e with slot := some (e.slot.getD c.payload) } :=
    waitsOn_fill.mpr ⟨e, hw, by rw [if_pos ⟨rfl, hsame⟩]⟩
  have honward := deliverable_of_filled (c := { c with stage := .filled }) (sound_fill hsound hc hstage)
    (List.mem_cons_self ..) rfl hfilled hsame
  exact honward

/-- A call that waits can be brought to its callback, from wherever it stands. -/
theorem deliverable (hsound : Sound t) {l : LoopId} {e : Waiting κ} (hw : t.relay.WaitsOn l e) :
    Deliverable t l e := by
  cases hsound.standing hw with
  | inFlight hregistered _ _ =>
    have hknown := take_of_inFlight hsound hregistered
    have honward := deliverable_of_taken (c := ⟨e.id, l, ⟨resultOk, 0⟩, .taken⟩)
      (sound_take hsound ⟨resultOk, 0⟩ hknown) (List.mem_cons_self ..) rfl hw rfl
    exact .after (.take t e.id ⟨resultOk, 0⟩ l hknown) honward
  | underway c hmem hsame hloop _ hready =>
    subst hloop
    cases hstage : c.stage with
    | taken => exact deliverable_of_taken hsound hmem hstage hw hsame.symm
    | filled => exact deliverable_of_filled hsound hmem hstage hw hsame.symm
    | pushed => exact deliverable_of_ready hsound hw (hready.mpr hstage)
  | settled payload _ _ _ hready => exact deliverable_of_ready hsound hw hready

/-! ## The registry -/

/-- **The registry is conserved.** In every state that some order of steps leads to:

* a call is in the registry exactly if it was issued and not taken back, no signal has taken it and its
  loop is alive;
* a call in the registry waits on the loop that the registry names and nowhere else, and a signal for
  it fills its slot there and puts its number in the queue of that loop;
* the calls that a loop waits for are its calls in the registry and its calls that a signal has come for
  and that are not delivered, each listed once;
* dropping a loop takes exactly its own calls out of the registry and leaves every other loop as it is,
  with each of its calls deliverable;
* a signal that took its call before the loop of the call was dropped changes nothing at any later
  point.

The bound is the width of a call number. -/
theorem registry_conserved (hreach : Reachable t) (hbound : t.begun < 2 ^ 64) :
    (∀ id l, (id, l) ∈ t.relay.inFlight ↔
      (∃ call ∈ t.issued, call.id = id ∧ call.loop = l) ∧ id ∉ t.taken.map (·.1) ∧
        t.relay.Alive l) ∧
    (∀ id l, (id, l) ∈ t.relay.inFlight → ∃ e, t.relay.WaitsOn l e ∧ e.id = id ∧
      (∀ l' e', t.relay.WaitsOn l' e' → e'.id = id → l' = l ∧ e' = e) ∧
      ∀ payload, (t.relay.signal id payload).WaitsOn l { e with slot := some payload } ∧
        (t.relay.signal id payload).ReadyOn l id) ∧
    (∀ l loop, t.relay.loop? l = some loop →
      (loop.waiting.map (·.id)).Perm (t.inFlightOn l ++ t.undelivered l) ∧
        (t.inFlightOn l ++ t.undelivered l).Nodup) ∧
    (∀ l, (∀ id l', (id, l') ∈ (t.relay.dropLoop l).inFlight ↔
        (id, l') ∈ t.relay.inFlight ∧ l' ≠ l) ∧
      ∀ l' ≠ l, (t.relay.dropLoop l).loop? l' = t.relay.loop? l' ∧
        ∀ e, t.relay.WaitsOn l' e → Deliverable { t with relay := t.relay.dropLoop l } l' e) ∧
    ∀ c ∈ t.underway, ¬ t.relay.Alive c.loop → ∀ t', Steps t t' →
      ∀ f, t'.relay.modifyLoop c.loop f = t'.relay := by
  -- the two invariants of a reachable state carry every part
  have hsound := sound_of_reachable hreach hbound
  have htidy := tidy_of_reachable hreach hbound
  refine ⟨fun id l => mem_inFlight_iff hsound htidy, ?_, ?_, ?_, ?_⟩
  · intro id l hregistered
    obtain ⟨e, hw, rfl⟩ := hsound.flightWaits hregistered
    refine ⟨e, hw, rfl, fun l' e' hw' hsame => ?_, signal_lands hsound hw hregistered⟩
    obtain ⟨rfl, rfl⟩ := hsound.waitsOnce hw' hw hsame
    exact ⟨rfl, rfl⟩
  · exact fun l loop hfound => ⟨waiting_perm hsound htidy hfound, nodup_calls hsound htidy l⟩
  · intro l
    refine ⟨fun id l' => mem_inFlight_dropLoop_iff hsound, fun l' hother => ⟨?_, fun e hw => ?_⟩⟩
    · rw [loop?_dropLoop, if_neg hother]
    · exact deliverable (sound_dropLoop hsound l) (waitsOn_dropLoop.mpr ⟨hother, hw⟩)
  · exact fun c hc hgone t' hsteps f => late_signal htidy hc hgone hsteps f

/-- Two loops with a call each. A signal has taken the first call, and then its loop was dropped. -/
def droppedMidway : Traffic Unit where
  relay := { nextCall := 3, nextLoop := 2, inFlight := [(2, 1)],
             loops := [(1, { waiting := [⟨2, (), none⟩] })] }
  underway := [⟨1, 0, ⟨resultOk, 7⟩, .taken⟩]
  begun := 2
  issued := [⟨2, 1, ()⟩, ⟨1, 0, ()⟩]
  taken := [(1, ⟨resultOk, 7⟩)]

theorem reachable_droppedMidway : Reachable droppedMidway := by
  have hfirst := Reachable.fresh.step (.openLoop ({} : Traffic Unit))
  have hsecond := hfirst.step (.openLoop _)
  have hone := hsecond.step (.issue _ 0 () rfl)
  have htwo := hone.step (.issue _ 1 () rfl)
  have htake := htwo.step (.take _ 1 ⟨resultOk, 7⟩ 0 rfl)
  exact htake.step (.dropLoop _ 0)

theorem droppedMidway_conserved :
    ((2, 1) ∈ droppedMidway.relay.inFlight ∧ (1, 0) ∉ droppedMidway.relay.inFlight) ∧
      (droppedMidway.inFlightOn 1 ++ droppedMidway.undelivered 1 = [2]) ∧
      Deliverable { droppedMidway with relay := droppedMidway.relay.dropLoop 0 } 1 ⟨2, (), none⟩ ∧
      ∀ f, droppedMidway.relay.modifyLoop 0 f = droppedMidway.relay := by
  obtain ⟨hregistered, _, hcalls, hdropped, hlate⟩ :=
    registry_conserved reachable_droppedMidway (by decide)
  refine ⟨⟨(hregistered 2 1).mpr ⟨⟨⟨2, 1, ()⟩, by decide, rfl, rfl⟩, by decide, rfl⟩, fun h => ?_⟩,
    ?_, ?_, ?_⟩
  · exact absurd ((hregistered 1 0).mp h).2.2 nofun
  · exact List.perm_singleton.mp (hcalls 1 _ rfl).1.symm
  · exact ((hdropped 0).2 1 (by decide)).2 _ ⟨_, rfl, List.mem_cons_self ..⟩
  · exact fun f => hlate _ (List.mem_cons_self ..) nofun _ (.refl _) f

end GridBridge.Relay
