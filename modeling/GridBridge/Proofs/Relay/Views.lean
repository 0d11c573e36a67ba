import GridBridge.Relay.State
import Mathlib.Algebra.Group.Nat.Defs
import Mathlib.Data.List.Nodup

/-!
# Relay views: who waits where, and what is ready

A relay is read through two views, **`WaitsOn`** (a call that a live loop waits for) and **`ReadyOn`**
(a number in the ready queue of a live loop). Each operation of `Relay.State` gets one lemma for each
view, so that the proofs about interleaved threads never open the lists of loops.
-/

namespace GridBridge.Relay

open Protocol

variable {κ : Type}

/-- Loop `l` is alive and waits for the call `e`. -/
def WaitsOn (r : Relay κ) (l : LoopId) (e : Waiting κ) : Prop :=
  ∃ loop, r.loop? l = some loop ∧ e ∈ loop.waiting

/-- Loop `l` is alive and has the number `id` in its ready queue. -/
def ReadyOn (r : Relay κ) (l : LoopId) (id : CallId) : Prop :=
  ∃ loop, r.loop? l = some loop ∧ id ∈ loop.ready

/-- Loop `l` has not been dropped. -/
def Alive (r : Relay κ) (l : LoopId) : Prop := (r.loop? l).isSome

/-- A loop that waits has not been dropped. -/
theorem WaitsOn.alive {r : Relay κ} {l : LoopId} {e : Waiting κ} (h : r.WaitsOn l e) :
    r.Alive l := by
  obtain ⟨loop, hloop, _⟩ := h
  rw [Alive, hloop]
  rfl

/-! ## What a loop has, in order -/

/-- The numbers that are ready on a loop, oldest first. -/
def queueOn (r : Relay κ) (l : LoopId) : List CallId := ((r.loop? l).map (·.ready)).getD []

/-- The numbers of the calls that a loop waits for. -/
def waitingOn (r : Relay κ) (l : LoopId) : List CallId :=
  ((r.loop? l).map (·.waiting.map (·.id))).getD []

/-- The numbers that a loop waits for are those of the calls that it waits for. -/
theorem mem_waitingOn {r : Relay κ} {l : LoopId} {id : CallId} :
    id ∈ r.waitingOn l ↔ ∃ e, r.WaitsOn l e ∧ e.id = id := by
  unfold waitingOn WaitsOn
  cases r.loop? l with
  | none => simp
  | some loop => simp

/-! ## Looking a loop up after an operation -/

/-- Only the loop that is changed is found changed. -/
theorem loop?_modifyLoop (r : Relay κ) (l l' : LoopId) (f : EventLoop κ → EventLoop κ) :
    (r.modifyLoop l f).loop? l' = if l' = l then (r.loop? l').map f else r.loop? l' := by
  unfold loop? modifyLoop
  induction r.loops with
  | nil => simp
  | cons entry rest ih =>
    obtain ⟨key, loop⟩ := entry
    simp only [List.map_cons]
    -- the list is searched from the front, so the entry is the one looked for or passed over
    by_cases hkey : l' = key
    · subst hkey
      by_cases hl : l' = l <;> simp [hl]
    · have hne : (l' == key) = false := by simpa using hkey
      by_cases hl : key = l
      · simp only [if_pos hl, List.lookup_cons, hne]
        exact ih
      · simp only [if_neg hl, List.lookup_cons, hne]
        exact ih

/-- A loop that was opened is found empty under the next number, and the others as they were. -/
theorem loop?_openLoop (r : Relay κ) (l : LoopId) :
    r.openLoop.2.loop? l = if l = r.nextLoop then some {} else r.loop? l := by
  unfold loop? openLoop
  by_cases hl : l = r.nextLoop
  · simp [hl]
  · have hne : (l == r.nextLoop) = false := by simpa using hl
    simp only [List.lookup_cons, hne, if_neg hl]

/-- A loop that was dropped is not found any more, and the others are. -/
theorem loop?_dropLoop (r : Relay κ) (l l' : LoopId) :
    (r.dropLoop l).loop? l' = if l' = l then none else r.loop? l' := by
  unfold loop? dropLoop
  dsimp only
  induction r.loops with
  | nil => simp
  | cons entry rest ih =>
    obtain ⟨key, loop⟩ := entry
    -- an entry is filtered out exactly if it is one of the loop that is dropped
    by_cases hkey : key = l
    · subst hkey
      rw [List.filter_cons_of_neg (by simp), ih]
      by_cases hl : l' = key
      · rw [if_pos hl, if_pos hl]
      · have hne : (l' == key) = false := by simpa using hl
        simp only [if_neg hl, List.lookup_cons, hne]
    · rw [List.filter_cons_of_pos (by simpa using hkey)]
      by_cases hl : l' = key
      · subst hl
        simp [hkey]
      · have hne : (l' == key) = false := by simpa using hl
        simp only [List.lookup_cons, hne]
        exact ih

/-! ## The views after a change of one loop -/

/-- Two changes of the same loop in a row. -/
theorem modifyLoop_modifyLoop (r : Relay κ) (l : LoopId) (f g : EventLoop κ → EventLoop κ) :
    (r.modifyLoop l f).modifyLoop l g = r.modifyLoop l fun loop => g (f loop) := by
  unfold modifyLoop
  simp only [List.map_map]
  congr 1
  apply List.map_congr_left
  intro entry _
  by_cases hhere : entry.1 = l <;> simp [hhere]

/-- A change of a loop opens and drops none. -/
theorem alive_modifyLoop {r : Relay κ} {l l' : LoopId} {f : EventLoop κ → EventLoop κ} :
    (r.modifyLoop l f).Alive l' ↔ r.Alive l' := by
  unfold Alive
  rw [loop?_modifyLoop]
  split <;> simp

/-- After a change a loop waits for what the change left it, and the others for what they waited for. -/
theorem waitsOn_modifyLoop {r : Relay κ} {l l' : LoopId} {f : EventLoop κ → EventLoop κ}
    {e : Waiting κ} :
    (r.modifyLoop l f).WaitsOn l' e ↔
      if l' = l then ∃ loop, r.loop? l = some loop ∧ e ∈ (f loop).waiting else r.WaitsOn l' e := by
  unfold WaitsOn
  rw [loop?_modifyLoop]
  by_cases hl : l' = l
  · subst hl
    simp only [if_true, Option.map_eq_some_iff]
    constructor
    · rintro ⟨_, ⟨loop, hloop, rfl⟩, he⟩
      exact ⟨loop, hloop, he⟩
    · rintro ⟨loop, hloop, he⟩
      exact ⟨f loop, ⟨loop, hloop, rfl⟩, he⟩
  · simp only [if_neg hl]

/-- After a change a loop has ready what the change left it, and the others what they had. -/
theorem readyOn_modifyLoop {r : Relay κ} {l l' : LoopId} {f : EventLoop κ → EventLoop κ}
    {id : CallId} :
    (r.modifyLoop l f).ReadyOn l' id ↔
      if l' = l then ∃ loop, r.loop? l = some loop ∧ id ∈ (f loop).ready else r.ReadyOn l' id := by
  unfold ReadyOn
  rw [loop?_modifyLoop]
  by_cases hl : l' = l
  · subst hl
    simp only [if_true, Option.map_eq_some_iff]
    constructor
    · rintro ⟨_, ⟨loop, hloop, rfl⟩, he⟩
      exact ⟨loop, hloop, he⟩
    · rintro ⟨loop, hloop, he⟩
      exact ⟨f loop, ⟨loop, hloop, rfl⟩, he⟩
  · simp only [if_neg hl]

/-- A change that keeps every ready queue keeps the view of it. -/
theorem readyOn_modifyLoop_of_ready {r : Relay κ} {l l' : LoopId}
    {f : EventLoop κ → EventLoop κ} {id : CallId} (hf : ∀ loop, (f loop).ready = loop.ready) :
    (r.modifyLoop l f).ReadyOn l' id ↔ r.ReadyOn l' id := by
  rw [readyOn_modifyLoop]
  by_cases hl : l' = l
  · subst hl
    simp only [if_true, hf]
    rfl
  · rw [if_neg hl]

/-- A change that keeps every list of waiting calls keeps the view of it. -/
theorem waitsOn_modifyLoop_of_waiting {r : Relay κ} {l l' : LoopId}
    {f : EventLoop κ → EventLoop κ} {e : Waiting κ} (hf : ∀ loop, (f loop).waiting = loop.waiting) :
    (r.modifyLoop l f).WaitsOn l' e ↔ r.WaitsOn l' e := by
  rw [waitsOn_modifyLoop]
  by_cases hl : l' = l
  · subst hl
    simp only [if_true, hf]
    rfl
  · rw [if_neg hl]

/-! ## Opening and dropping loops -/

/-- A new loop waits for nothing. -/
theorem waitsOn_openLoop {r : Relay κ} {l : LoopId} {e : Waiting κ}
    (hfresh : ¬ r.Alive r.nextLoop) : r.openLoop.2.WaitsOn l e ↔ r.WaitsOn l e := by
  unfold WaitsOn
  rw [loop?_openLoop]
  by_cases hl : l = r.nextLoop
  · subst hl
    have hnone : r.loop? r.nextLoop = none := by simpa [Alive] using hfresh
    simp [hnone]
  · rw [if_neg hl]

/-- A new loop has nothing ready. -/
theorem readyOn_openLoop {r : Relay κ} {l : LoopId} {id : CallId}
    (hfresh : ¬ r.Alive r.nextLoop) : r.openLoop.2.ReadyOn l id ↔ r.ReadyOn l id := by
  unfold ReadyOn
  rw [loop?_openLoop]
  by_cases hl : l = r.nextLoop
  · subst hl
    have hnone : r.loop? r.nextLoop = none := by simpa [Alive] using hfresh
    simp [hnone]
  · rw [if_neg hl]

/-- It is alive, and so is every loop that was. -/
theorem alive_openLoop {r : Relay κ} {l : LoopId} :
    r.openLoop.2.Alive l ↔ l = r.nextLoop ∨ r.Alive l := by
  unfold Alive
  rw [loop?_openLoop]
  by_cases hl : l = r.nextLoop <;> simp [hl]

/-- A dropped loop is not alive, and every other one is that was. -/
theorem alive_dropLoop {r : Relay κ} {l l' : LoopId} :
    (r.dropLoop l).Alive l' ↔ l' ≠ l ∧ r.Alive l' := by
  unfold Alive
  rw [loop?_dropLoop]
  by_cases hl : l' = l <;> simp [hl]

/-- What it waited for is waited for no more. -/
theorem waitsOn_dropLoop {r : Relay κ} {l l' : LoopId} {e : Waiting κ} :
    (r.dropLoop l).WaitsOn l' e ↔ l' ≠ l ∧ r.WaitsOn l' e := by
  unfold WaitsOn
  rw [loop?_dropLoop]
  by_cases hl : l' = l <;> simp [hl]

/-- What it had ready is not ready any more. -/
theorem readyOn_dropLoop {r : Relay κ} {l l' : LoopId} {id : CallId} :
    (r.dropLoop l).ReadyOn l' id ↔ l' ≠ l ∧ r.ReadyOn l' id := by
  unfold ReadyOn
  rw [loop?_dropLoop]
  by_cases hl : l' = l <;> simp [hl]

/-- Dropping a loop takes out of the registry the calls that it waited for, and no others. -/
theorem mem_inFlight_dropLoop {r : Relay κ} {l l' : LoopId} {id : CallId} :
    (id, l') ∈ (r.dropLoop l).inFlight ↔
      (id, l') ∈ r.inFlight ∧ ¬ ∃ e, r.WaitsOn l e ∧ e.id = id := by
  unfold dropLoop WaitsOn
  cases hloop : r.loop? l with
  | none => simp
  | some loop =>
    -- the registry loses the numbers of the loop's list, which is how `WaitsOn` is stated
    simp only [Option.map_some, Option.getD_some, List.mem_filter, Bool.not_eq_true',
      List.contains_eq_mem, decide_eq_false_iff_not, List.mem_map, Option.some.injEq]
    constructor
    · rintro ⟨hmem, hnot⟩
      refine ⟨hmem, ?_⟩
      rintro ⟨e, ⟨_, rfl, he⟩, hid⟩
      exact hnot ⟨e, he, hid⟩
    · rintro ⟨hmem, hnot⟩
      refine ⟨hmem, ?_⟩
      rintro ⟨e, he, hid⟩
      exact hnot ⟨e, ⟨loop, rfl, he⟩, hid⟩

/-! ## Issuing, withdrawing and taking -/

/-- A call that begins is waited for by its loop, under the next number and without a payload. -/
theorem waitsOn_begin {r : Relay κ} {l l' : LoopId} {callback : κ} {e : Waiting κ}
    (hl : r.Alive l) :
    (r.begin l callback).2.WaitsOn l' e ↔
      r.WaitsOn l' e ∨ (l' = l ∧ e = { id := r.nextCall, callback }) := by
  have hmodify : (r.begin l callback).2.WaitsOn l' e ↔
      (r.modifyLoop l (·.register r.nextCall callback)).WaitsOn l' e := Iff.rfl
  rw [hmodify, waitsOn_modifyLoop]
  obtain ⟨loop, hloop⟩ := Option.isSome_iff_exists.mp hl
  by_cases hll : l' = l
  · subst hll
    simp [WaitsOn, hloop, EventLoop.register]
  · simp [hll]

/-- It is not ready, and nothing else becomes ready by it. -/
theorem readyOn_begin {r : Relay κ} {l l' : LoopId} {callback : κ} {id : CallId} :
    (r.begin l callback).2.ReadyOn l' id ↔ r.ReadyOn l' id :=
  readyOn_modifyLoop_of_ready (r := r) (f := (·.register r.nextCall callback)) fun _ => rfl

theorem alive_begin {r : Relay κ} {l l' : LoopId} {callback : κ} :
    (r.begin l callback).2.Alive l' ↔ r.Alive l' :=
  alive_modifyLoop (r := r) (f := (·.register r.nextCall callback))

/-- A number that is withdrawn is waited for no more, and every other one is. -/
theorem mem_waiting_withdraw {loop : EventLoop κ} {id : CallId} {e : Waiting κ} :
    e ∈ (loop.withdraw id).waiting ↔ e ∈ loop.waiting ∧ e.id ≠ id := by
  simp [EventLoop.withdraw]

/-- The same of a loop in a relay. -/
theorem waitsOn_withdraw {r : Relay κ} {l l' : LoopId} {id : CallId} {e : Waiting κ} :
    (r.withdraw l id).WaitsOn l' e ↔ r.WaitsOn l' e ∧ (l' = l → e.id ≠ id) := by
  have hmodify : (r.withdraw l id).WaitsOn l' e ↔
      (r.modifyLoop l (·.withdraw id)).WaitsOn l' e := Iff.rfl
  rw [hmodify, waitsOn_modifyLoop]
  by_cases hl : l' = l
  · subst hl
    simp only [if_true, mem_waiting_withdraw, WaitsOn, forall_const]
    constructor
    · rintro ⟨loop, hloop, he, hid⟩
      exact ⟨⟨loop, hloop, he⟩, hid⟩
    · rintro ⟨⟨loop, hloop, he⟩, hid⟩
      exact ⟨loop, hloop, he, hid⟩
  · simp [hl]

/-- A number that is withdrawn stays in the queue if it had come there. -/
theorem readyOn_withdraw {r : Relay κ} {l l' : LoopId} {id id' : CallId} :
    (r.withdraw l id).ReadyOn l' id' ↔ r.ReadyOn l' id' :=
  readyOn_modifyLoop_of_ready (r := { r with inFlight := r.inFlight.filter (·.1 != id) })
    fun _ => rfl

/-- No loop goes with it. -/
theorem alive_withdraw {r : Relay κ} {l l' : LoopId} {id : CallId} :
    (r.withdraw l id).Alive l' ↔ r.Alive l' :=
  alive_modifyLoop (r := { r with inFlight := r.inFlight.filter (·.1 != id) })

/-- It is taken out of the registry, and no other number is. -/
theorem mem_inFlight_withdraw {r : Relay κ} {l l' : LoopId} {id id' : CallId} :
    (id', l') ∈ (r.withdraw l id).inFlight ↔ (id', l') ∈ r.inFlight ∧ id' ≠ id := by
  simp [withdraw, modifyLoop]

/-- So is a number that is taken. -/
theorem mem_inFlight_take {r : Relay κ} {l : LoopId} {id id' : CallId} :
    (id', l) ∈ (r.take id).2.inFlight ↔ (id', l) ∈ r.inFlight ∧ id' ≠ id := by
  simp [take]

/-- What `take` answers was in the registry. -/
theorem mem_inFlight_of_take {r : Relay κ} {l : LoopId} {id : CallId}
    (h : (r.take id).1 = some l) : (id, l) ∈ r.inFlight := by
  have hlookup : r.inFlight.lookup id = some l := h
  obtain ⟨before, _, hsplit, _⟩ := List.lookup_eq_some_iff.mp hlookup
  rw [hsplit]
  exact List.mem_append_right before (List.mem_cons_self ..)

/-- A signal for a call that is not in flight finds nothing to take. -/
theorem take_of_unknown {r : Relay κ} {id : CallId} (hunknown : (r.take id).1 = none) :
    (r.take id).2 = r := by
  have hkept : r.inFlight.filter (·.1 != id) = r.inFlight := by
    refine List.filter_eq_self.mpr fun entry hlisted => ?_
    have hother := List.lookup_eq_none_iff.mp (show r.inFlight.lookup id = none from hunknown)
      entry hlisted
    simpa [eq_comm (a := id)] using hother
  rw [take, hkept]

/-- It changes nothing. -/
theorem signal_of_unknown {r : Relay κ} {id : CallId} (hunknown : (r.take id).1 = none)
    (payload : Completion) : r.signal id payload = r := by
  unfold signal
  rw [show r.take id = (none, (r.take id).2) from Prod.ext hunknown rfl]

/-- Any other one takes its call, fills the slot, pushes the number and wakes the loop. -/
theorem signal_of_known {r : Relay κ} {id : CallId} {l : LoopId} (hknown : (r.take id).1 = some l)
    (payload : Completion) :
    r.signal id payload = (((r.take id).2.modifyLoop l (·.fill id payload)).modifyLoop l
      (·.push id)).modifyLoop l (·.unpark) := by
  unfold signal
  rw [show r.take id = (some l, (r.take id).2) from Prod.ext hknown rfl]

/-! ## Filling, pushing and claiming -/

/-- Filling a slot changes that one waiting call, and only if its slot was empty. -/
theorem waitsOn_fill {r : Relay κ} {l l' : LoopId} {id : CallId} {payload : Completion}
    {e : Waiting κ} :
    (r.modifyLoop l (·.fill id payload)).WaitsOn l' e ↔
      ∃ e₀, r.WaitsOn l' e₀ ∧
        e = if l' = l ∧ e₀.id = id then { e₀ with slot := some (e₀.slot.getD payload) } else e₀ := by
  rw [waitsOn_modifyLoop]
  by_cases hl : l' = l
  · subst hl
    -- the calls of the changed loop are the images of those that it had
    simp only [if_true, EventLoop.fill, List.mem_map, WaitsOn, true_and]
    constructor
    · rintro ⟨loop, hloop, e₀, he, rfl⟩
      exact ⟨e₀, ⟨loop, hloop, he⟩, rfl⟩
    · rintro ⟨e₀, ⟨loop, hloop, he⟩, rfl⟩
      exact ⟨loop, hloop, e₀, he, rfl⟩
  · simp [hl]

/-- A number that is pushed is ready, if its loop is alive. -/
theorem readyOn_push {r : Relay κ} {l l' : LoopId} {id id' : CallId} :
    (r.modifyLoop l (·.push id)).ReadyOn l' id' ↔
      r.ReadyOn l' id' ∨ (l' = l ∧ id' = id ∧ r.Alive l) := by
  rw [readyOn_modifyLoop]
  by_cases hl : l' = l
  · subst hl
    cases hloop : r.loop? l' with
    | none => simp [ReadyOn, Alive, hloop]
    | some loop => simp [ReadyOn, Alive, hloop, EventLoop.push]
  · simp [hl]

/-- What `claimNext?` does: it takes the head of a live loop's queue and withdraws that number, and
it claims the callback of a waiting call whose slot is filled. -/
theorem claimNext?_eq_some {r after : Relay κ} {l : LoopId} {id : CallId}
    {claimed : Option (κ × Completion)} (h : r.claimNext? l = some (id, claimed, after)) :
    ∃ loop rest, r.loop? l = some loop ∧ loop.ready = id :: rest ∧
      claimed = (loop.find? id).bind
        (fun w => w.slot.map fun payload => (w.callback, payload)) ∧
      after = r.modifyLoop l fun _ => ({ loop with ready := rest } : EventLoop κ).withdraw id := by
  unfold claimNext? at h
  cases hloop : r.loop? l with
  | none => simp [hloop] at h
  | some loop =>
    cases hready : loop.ready with
    | nil => simp [hloop, EventLoop.pop?, hready] at h
    | cons next rest =>
      simp only [hloop, Option.bind_some, EventLoop.pop?, hready, EventLoop.claim,
        Option.some.injEq, Prod.mk.injEq] at h
      obtain ⟨rfl, rfl, rfl⟩ := h
      exact ⟨loop, rest, rfl, hready, rfl, rfl⟩

/-- The call whose number was first in the queue is waited for no more. -/
theorem waitsOn_claimNext {r after : Relay κ} {l l' : LoopId} {id : CallId}
    {claimed : Option (κ × Completion)} {e : Waiting κ}
    (h : r.claimNext? l = some (id, claimed, after)) :
    after.WaitsOn l' e ↔ r.WaitsOn l' e ∧ (l' = l → e.id ≠ id) := by
  obtain ⟨loop, rest, hloop, _, _, rfl⟩ := claimNext?_eq_some h
  rw [waitsOn_modifyLoop]
  by_cases hl : l' = l
  · subst hl
    simp [WaitsOn, hloop, mem_waiting_withdraw]
  · simp [hl]

/-- Taking a number off a queue leaves every other number where it was. -/
theorem readyOn_of_claimNext {r after : Relay κ} {l l' : LoopId} {id id' : CallId}
    {claimed : Option (κ × Completion)} (h : r.claimNext? l = some (id, claimed, after))
    (hready : after.ReadyOn l' id') : r.ReadyOn l' id' := by
  obtain ⟨loop, rest, hloop, hhead, _, rfl⟩ := claimNext?_eq_some h
  rw [readyOn_modifyLoop] at hready
  by_cases hl : l' = l
  · subst hl
    simp only [if_true] at hready
    obtain ⟨_, _, hmem⟩ := hready
    exact ⟨loop, hloop, hhead ▸ List.mem_cons_of_mem _ hmem⟩
  · rwa [if_neg hl] at hready

/-- Every other number that was ready still is. -/
theorem readyOn_claimNext_of_ne {r after : Relay κ} {l l' : LoopId} {id id' : CallId}
    {claimed : Option (κ × Completion)} (h : r.claimNext? l = some (id, claimed, after))
    (hready : r.ReadyOn l' id') (hne : l' = l → id' ≠ id) : after.ReadyOn l' id' := by
  obtain ⟨loop, rest, hloop, hhead, _, rfl⟩ := claimNext?_eq_some h
  rw [readyOn_modifyLoop]
  by_cases hl : l' = l
  · subst hl
    rw [if_pos rfl]
    obtain ⟨loop', hloop', hmem⟩ := hready
    rw [hloop, Option.some.injEq] at hloop'
    subst hloop'
    rw [hhead, List.mem_cons] at hmem
    exact ⟨loop, hloop, hmem.resolve_left (hne rfl)⟩
  · rwa [if_neg hl]

/-- To claim a call drops no loop. -/
theorem alive_claimNext {r after : Relay κ} {l l' : LoopId} {id : CallId}
    {claimed : Option (κ × Completion)} (h : r.claimNext? l = some (id, claimed, after)) :
    after.Alive l' ↔ r.Alive l' := by
  obtain ⟨_, _, _, _, _, rfl⟩ := claimNext?_eq_some h
  exact alive_modifyLoop

end GridBridge.Relay
