import GridBridge.Proofs.Relay.Order
import GridBridge.Session.Asynchronous

/-!
# Runs of a loop

`runThrough` runs a loop in any world that keeps a relay: it drains until nothing is pending, and waits
whenever a drain has delivered nothing. A session runs its loops so (`run_eq`). If all that waits is in
the queue and callbacks leave behind nothing that is not, one drain is enough and there is no wait.
-/

namespace GridBridge.Relay

open Protocol

variable {κ σ ε : Type}

/-! ## The code -/

section Code

variable {m : Type → Type} [Monad m] (world : Access κ m) (follow : κ → Nat)
  (react : κ → Completion → m Unit) (wait : m (Option Nat)) (l : LoopId)

/-- Drains, and waits if that delivers nothing while calls are pending. -/
def runOnceThrough : m (Option Nat) := do
  let count ← drain world follow react l
  if count > 0 || (← world.read).pending l == 0 then return some count
  wait

/-- Delivers until nothing is pending, in at most so many goes. -/
def runThroughWithin : Nat → m (Option Nat)
  | 0 => return some 0
  | limit + 1 => do
    if (← world.read).pending l == 0 then return some 0
    match ← runOnceThrough world follow react wait l with
    | none => return none
    | some count => return (← runThroughWithin limit).map (count + ·)

/-- Goes that a run can take: each delivers at least one call. -/
def goes (r : Relay κ) : Nat :=
  ((r.loop? l).map fun loop => total (fun w => follow w.callback + 1) loop.waiting).getD 0

/-- Delivers until nothing is pending. -/
def runThrough : m (Option Nat) := do
  runThroughWithin world follow react wait l (goes follow l (← world.read))

end Code

/-- The run of a session, in which the workers of the runtime get their turn while it waits. -/
theorem run_eq (l : LoopId) :
    Session.run l = runThrough Session.relayAccess Session.Reaction.following Session.react
      (do Session.awaitDelivery l .forever ((← get).runtime.tasks.length + 2)) l := by
  have hwithin : ∀ limit, Session.runWithin l limit =
      runThroughWithin Session.relayAccess Session.Reaction.following Session.react
        (do Session.awaitDelivery l .forever ((← get).runtime.tasks.length + 2)) l limit := by
    intro limit
    induction limit with
    | zero => rfl
    | succ limit ih =>
      unfold Session.runWithin runThroughWithin
      rw [ih]
      rfl
  unfold Session.run runThrough
  simp only [hwithin]
  rfl

/-! ## Without a wait -/

theorem pending_eq (r : Relay κ) (l : LoopId) : r.pending l = (r.waitingOn l).length := by
  unfold pending waitingOn
  cases r.loop? l with
  | none => rfl
  | some loop => exact (List.length_map _).symm

section Run

variable {relayOf : σ → Relay κ} {world : Access κ (ExceptT ε (StateM σ))} {follow : κ → Nat}
  {react : κ → Completion → ExceptT ε (StateM σ) Unit} {l : LoopId} {good : σ → Prop}
  {n : Nat} {s s' : σ} {loop : EventLoop κ} {log : List (Served κ σ)}

/-- Where nothing waits, nothing is served. -/
theorem Drains.eq_nil (hdrains : Drains world relayOf react l s log s')
    (hfit : Fit n l (relayOf s) loop) (hidle : (relayOf s).waitingOn l = []) : log = [] := by
  induction hdrains generalizing loop with
  | done => rfl
  | skip hnext _ _ hwritten _ ih =>
    obtain ⟨loop₁, hfit₁, -, hwaiting, -⟩ := hfit.claim hnext
    rw [← hwritten] at hfit₁
    apply ih hfit₁
    rw [hfit.waitingOn_eq, List.map_eq_nil_iff] at hidle
    rw [hfit₁.waitingOn_eq, hwaiting, hidle]
    rfl
  | serve hnext =>
    obtain ⟨-, -, -, -, -, -, hclaims⟩ := hfit.claim hnext
    have hclaimed := hfit.waitsOn_iff.mpr (hclaims _ _ rfl)
    have hmem := mem_waitingOn.mpr ⟨_, hclaimed, rfl⟩
    rw [hidle] at hmem
    exact absurd hmem List.not_mem_nil

variable (relayOf l) in
/-- All that waits is in the queue, and callbacks leave behind no call that is not. -/
structure Signalled (s : σ) (log : List (Served κ σ)) : Prop where
  before : ∀ id ∈ (relayOf s).waitingOn l, id ∈ (relayOf s).queueOn l
  during : ∀ e ∈ log, ∀ id ∈ e.begun relayOf l, id ∈ e.sent relayOf l

/-- Whatever waited or came to wait was served. -/
theorem InOrder.mem_log (h : InOrder relayOf l n s log s') (hsignalled : Signalled relayOf l s log)
    {id : CallId} (hmem : id ∈ (relayOf s).waitingOn l ++ log.flatMap (·.begun relayOf l)) :
    id ∈ log.map (·.id) := by
  rw [h.order, List.mem_eraseDups, List.mem_filter]
  refine ⟨?_, by simpa using hmem⟩
  rcases List.mem_append.mp hmem with hold | hnew
  · exact List.mem_append_left _ (hsignalled.before id hold)
  · obtain ⟨e, hserved, hbegun⟩ := List.mem_flatMap.mp hnew
    exact List.mem_append_right _ (List.mem_flatMap.mpr ⟨e, hserved, hsignalled.during e hserved id
      hbegun⟩)

theorem InOrder.pending_eq_zero (h : InOrder relayOf l n s log s')
    (hsignalled : Signalled relayOf l s log) : (relayOf s').pending l = 0 := by
  rw [pending_eq, h.waiting, List.filter_eq_nil_iff.mpr]
  · rfl
  · intro id hmem
    simpa using h.mem_log hsignalled hmem

/-- A run with nothing pending is over at once. -/
theorem runThroughWithin_idle (hfaithful : Faithful world relayOf)
    (wait : ExceptT ε (StateM σ) (Option Nat))
    (hidle : (relayOf s).pending l = 0) (limit : Nat) :
    (runThroughWithin world follow react wait l limit).run.run s = (.ok (some 0), s) := by
  cases limit with
  | zero => rfl
  | succ limit =>
    unfold runThroughWithin
    rw [run_bind_of_ok (hfaithful.read s), hidle]
    rfl

theorem goes_pos (follow : κ → Nat) {r : Relay κ} (hbusy : r.pending l ≠ 0) : 0 < goes follow l r := by
  unfold pending at hbusy
  unfold goes
  cases hfound : r.loop? l with
  | none => simp [hfound] at hbusy
  | some loop =>
    obtain ⟨w, rest, hwaiting⟩ := List.exists_cons_of_ne_nil (l := loop.waiting) fun hempty => by
      simp [hfound, EventLoop.pending, hempty] at hbusy
    simp only [Option.map_some, Option.getD_some, hwaiting, total]
    omega

/-- A run in which the first drain delivers all there is. -/
theorem runThrough_of_drain (hfaithful : Faithful world relayOf)
    (wait : ExceptT ε (StateM σ) (Option Nat)) {count : Nat}
    (hbusy : (relayOf s).pending l ≠ 0) (hran : 0 < count)
    (hdrained : (drain world follow react l).run.run s = (.ok count, s'))
    (hidle : (relayOf s').pending l = 0) :
    (runThrough world follow react wait l).run.run s = (.ok (some count), s') := by
  unfold runThrough
  rw [run_bind_of_ok (hfaithful.read s)]
  obtain ⟨limit, hgoes⟩ :=
    Nat.exists_eq_add_one_of_ne_zero (Nat.pos_iff_ne_zero.mp (goes_pos follow hbusy))
  rw [hgoes]
  unfold runThroughWithin
  rw [run_bind_of_ok (hfaithful.read s)]
  -- the first turn already serves everything, and the one after it finds nothing pending
  have honce : (runOnceThrough world follow react wait l).run.run s = (.ok (some count), s') := by
    unfold runOnceThrough
    rw [run_bind_of_ok hdrained, run_bind_of_ok (hfaithful.read s'), if_pos (by simp [hran])]
    rfl
  simp only [beq_iff_eq, hbusy, if_false]
  rw [run_bind_of_ok honce]
  simp only []
  rw [run_bind_of_ok (runThroughWithin_idle hfaithful wait hidle limit)]
  rfl

/-- A drain of a loop that is fit comes to its end, and what it served is in order. -/
theorem drain_inOrder (hfaithful : Faithful world relayOf)
    (hconducts : Conducts world relayOf follow react l good) (hfine : good s)
    (hfit : Fit n l (relayOf s) loop) (hroom : Room follow n (relayOf s)) :
    ∃ log s', Drains world relayOf react l s log s' ∧
      (drain world follow react l).run.run s = (.ok log.length, s') ∧
      InOrder relayOf l n s log s' ∧ good s' ∧
      ∃ n' loop', Fit n' l (relayOf s') loop' ∧ Room follow n' (relayOf s') := by
  obtain ⟨log, s', hdrains, hran, hfine', hlast⟩ :=
    drains_within hfaithful hconducts (drainLimit follow (relayOf s)) hfine hfit hroom (Nat.le_refl _)
  refine ⟨log, s', hdrains, ?_, hdrains.inOrder hconducts hfine hfit hroom, hfine', hlast⟩
  unfold drain
  rw [run_bind_of_ok (hfaithful.read s)]
  exact hran

/-- Where a drain delivers all there is, the run is that drain, or there is nothing to run. -/
theorem runThrough_of_signalled (hfaithful : Faithful world relayOf)
    (hfit : Fit n l (relayOf s) loop) (hdrains : Drains world relayOf react l s log s')
    (hdrained : (drain world follow react l).run.run s = (.ok log.length, s'))
    (hinOrder : InOrder relayOf l n s log s') (hsignalled : Signalled relayOf l s log)
    (wait : ExceptT ε (StateM σ) (Option Nat)) :
    (runThrough world follow react wait l).run.run s =
      (.ok (some log.length), if (relayOf s).pending l = 0 then s else s') := by
  have hidle := hinOrder.pending_eq_zero hsignalled
  by_cases hnothing : (relayOf s).pending l = 0
  · have hnoneServed := hdrains.eq_nil hfit (List.length_eq_zero_iff.mp (pending_eq _ _ ▸ hnothing))
    rw [if_pos hnothing, hnoneServed]
    unfold runThrough
    rw [run_bind_of_ok (hfaithful.read s)]
    exact runThroughWithin_idle hfaithful wait hnothing _
  · rw [if_neg hnothing]
    apply runThrough_of_drain hfaithful wait hnothing _ hdrained hidle
    -- something waits, so it was served
    rw [pending_eq] at hnothing
    obtain ⟨id, rest, hwaiting⟩ := List.exists_cons_of_length_pos (Nat.pos_of_ne_zero hnothing)
    have hserved := hinOrder.mem_log hsignalled
      (List.mem_append_left _ (hwaiting ▸ List.mem_cons_self ..))
    simpa using List.length_pos_of_mem hserved

/-- **What a drain delivers, and when a run needs no wait.** On a loop with any numbers in its queue a
drain comes to an end (`Drains`), has run the callback of each waiting call whose number came up, once
and in order (`InOrder`), and returns how many that are. It leaves the loop fit for the next. If all
that waits is in the queue, and callbacks leave behind no call that is not, then a run returns just that
count, however it would wait, and nothing is pending.

Callbacks do what `Conducts` says. A session runs its loops in this way. -/
theorem drains_and_runs (hfaithful : Faithful world relayOf)
    (hconducts : Conducts world relayOf follow react l good) (hfine : good s)
    (hfit : Fit n l (relayOf s) loop) (hroom : Room follow n (relayOf s)) :
    ∃ log s', Drains world relayOf react l s log s' ∧
      (drain world follow react l).run.run s = (.ok log.length, s') ∧
      InOrder relayOf l n s log s' ∧
      (good s' ∧ ∃ n' loop', Fit n' l (relayOf s') loop' ∧ Room follow n' (relayOf s')) ∧
      (Signalled relayOf l s log → (relayOf s').pending l = 0 ∧
        ∀ wait, (runThrough world follow react wait l).run.run s =
          (.ok (some log.length), if (relayOf s).pending l = 0 then s else s')) ∧
      ∀ l, Session.run l =
        runThrough Session.relayAccess Session.Reaction.following Session.react
          (do Session.awaitDelivery l .forever ((← get).runtime.tasks.length + 2)) l := by
  -- one log accounts for the run: its length is the count, and its entries are in order
  obtain ⟨log, s', hdrains, hdrained, hinOrder, hfine', hlast⟩ :=
    drain_inOrder hfaithful hconducts hfine hfit hroom
  exact ⟨log, s', hdrains, hdrained, hinOrder, ⟨hfine', hlast⟩, fun hsignalled =>
    ⟨hinOrder.pending_eq_zero hsignalled,
      runThrough_of_signalled hfaithful hfit hdrains hdrained hinOrder hsignalled⟩, run_eq⟩

end Run

/-! ## A chain of calls, with stale numbers in the queue -/

/-- A world that is a relay. -/
def relayOnly : Access Nat (ExceptT Unit (StateM (Relay Nat))) where
  read := get
  write := set

/-- Issues a call that leads to one call less, and signals it. -/
def countDown : Nat → Completion → ExceptT Unit (StateM (Relay Nat)) Unit
  | 0, _ => pure ()
  | k + 1, payload => modify fun r => (r.begin 0 k).2.signal r.nextCall payload

theorem countDown_conducts :
    Conducts relayOnly (fun r => r) (fun k => k) countDown 0 (fun _ => True) where
  skips := fun _ _ _ => trivial
  serves := by
    intro id k payload after r r₁ _ _ _ hwritten
    obtain rfl : r₁ = after := hwritten
    cases k with
    | zero => exact ⟨r₁, [], rfl, trivial, rfl, nofun, Nat.le_refl 0⟩
    | succ k =>
      refine ⟨_, [.issue 0 k [(r₁.nextCall, payload)] false], rfl, trivial, rfl, ?_, Nat.le_refl _⟩
      intro deed hmem
      rw [List.mem_singleton.mp hmem]
      exact trivial

/-- Of three calls the second is gone. Its number is in the queue, too, and each comes up twice. -/
def stale : Relay Nat where
  nextCall := 4
  nextLoop := 1
  loops := [(0, { waiting := [⟨1, 2, some ⟨resultOk, 7⟩⟩, ⟨3, 0, some ⟨resultOk, 8⟩⟩],
                  ready := [3, 2, 1, 3, 2, 1] })]

theorem stale_fit : ∃ loop, Fit 3 0 stale loop := by
  have hkeyed : (stale.loops.map (·.1)).Nodup := by decide
  have hknown : ∀ id ∈ stale.numbers, id.toNat ≤ 3 := by simp [numbers, stale]
  exact ⟨_, rfl, hkeyed, by decide, ⟨rfl, hknown⟩, by simp, by decide, by decide⟩

/-- A call that comes to wait while `countDown` runs is signalled by then. -/
theorem begun_eq_sent {e : Served Nat (Relay Nat)}
    (hran : (countDown e.callback e.payload).run.run e.before = (.ok (), e.after)) :
    e.begun (fun r => r) 0 = e.sent (fun r => r) 0 := by
  obtain ⟨id, k, payload, r, r'⟩ := e
  cases k with
  | zero =>
    obtain rfl : r = r' := (Prod.mk.inj hran).2
    simp [Served.begun, Served.sent]
  | succ k =>
    obtain rfl : (r.begin 0 k).2.signal r.nextCall payload = r' := (Prod.mk.inj hran).2
    have hknown : (r.begin 0 k).2.inFlight.lookup r.nextCall = some 0 := by simp [begin]
    -- the callback begins one call and completes it at once
    have hfound := loop?_modifyLoop ((r.begin 0 k).2.take r.nextCall).2 0 0
      (Fit.signalled · r.nextCall payload)
    have hbegun : ((r.begin 0 k).2.take r.nextCall).2.loop? 0 =
        (r.loop? 0).map (·.register r.nextCall k) :=
      (loop?_modifyLoop r 0 0 (·.register r.nextCall k)).trans (if_pos rfl)
    rw [← Fit.signal_of_listed payload hknown, if_pos rfl, hbegun] at hfound
    simp only [Served.begun, Served.sent, waitingOn, queueOn, hfound]
    cases r.loop? 0 with
    | none => rfl
    | some loop =>
      have hgrown := Fit.grown_signalled 0 (loop.register r.nextCall k) r.nextCall payload
      simp only [Option.map_some, Option.getD_some, hgrown.ids, hgrown.ready]
      simp [EventLoop.register]

/-- The numbers that were left over and those that come up again do no harm: the calls `3` and `1` are
served, and the two that `1` leads to, however long a wait would be. -/
theorem stale_run :
    ∃ r, (∀ wait, (runThrough relayOnly (fun k => k) countDown wait 0).run.run
      stale = (.ok (some 4), r)) ∧
      r.pending 0 = 0 := by
  have hfaithful : Faithful relayOnly (fun r => r) := ⟨fun _ => rfl, fun relay _ => ⟨relay, rfl, rfl⟩⟩
  obtain ⟨loop, hfit⟩ := stale_fit
  have hroom : 3 + drainLimit (twice fun k => k) stale < 2 ^ 64 := by decide
  obtain ⟨log, r, hdrains, hdrained, -, -, hruns, -⟩ :=
    drains_and_runs hfaithful countDown_conducts trivial hfit hroom
  obtain ⟨hidle, hrun⟩ := hruns
    { before := by simp [waitingOn, queueOn, loop?, stale]
      during := fun e hmem id hbegun => begun_eq_sent (hdrains.ran hmem) ▸ hbegun }
  have hfour : ((drain relayOnly (fun k => k) countDown 0).run.run stale).1 = .ok 4 := by
    rfl
  rw [hdrained] at hfour
  have hcount : log.length = 4 := Except.ok.inj hfour
  exact ⟨r, fun wait => by rw [hrun wait, hcount]; rfl, hidle⟩

end GridBridge.Relay
