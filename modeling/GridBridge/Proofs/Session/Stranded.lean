import GridBridge.Proofs.Session.Crew

/-!
# Stranded calls

A call that a loop waits for is **`Carried`** if something is left that can complete it: a task of a
runtime that is up, a completion that was handed over, a signal on its way, or its number in the queue of
the loop. As long as the runtime was not destroyed, every call that waits is carried
(**`carried_until_destroyed`**). A runtime that is destroyed takes its tasks along and tells nobody, so
calls that only they carried wait for ever (`torn_strands`).
-/

namespace GridBridge.Session.Crew

open Protocol Seam Bridge Managed Relay

variable {n : Nat} {c c' : Crew} {l : LoopId} {id : CallId}

/-! ## What is left for a call -/

/-- Something is left that can complete a call that a loop waits for. -/
inductive Carried (c : Crew) (l : LoopId) (id : CallId) : Prop where
  /-- A task in the queue or with a worker, in a runtime that is up and has its completion entry. -/
  | task (task : Task) (hmem : task ∈ c.runtime.tasks ++ c.executing) (habout : task.call? = some id)
      (hup : c.runtime.phase = .running) (hbound : c.runtime.entry = some .completion)
  | handed (signal : Signal) (hmem : signal ∈ c.handed) (habout : signal.call? = some id)
  | underway (courier : Courier) (hmem : courier ∈ c.couriers) (habout : courier.id = id)
      (hloop : courier.loop = l)
  | ready (hready : c.relay.ReadyOn l id)

/-- Workers alone can bring the call to its loop: its number is in the queue then, and its payload in the
slot. -/
def Completable (c : Crew) (l : LoopId) (id : CallId) : Prop :=
  ∃ c', WorksTo c c' ∧ c'.relay.ReadyOn l id ∧
    ∃ e payload, c'.relay.WaitsOn l e ∧ e.id = id ∧ e.slot = some payload

theorem Completable.after (hworks : Works c c') (h : Completable c' l id) : Completable c l id := by
  obtain ⟨c'', honward, hready, hslot⟩ := h
  exact ⟨c'', .head hworks honward, hready, hslot⟩

/-- No step of a worker takes a call from a loop or adds one. -/
theorem waitingOn_of_works (hworks : Works c c') : c'.relay.waitingOn l = c.relay.waitingOn l := by
  cases hworks with
  | receive signal hmem hother => exact congrArg (·.waitingOn l) (relay_receiveSignal hother)
  | fill courier hmem hstage => exact waitingOn_modifyLoop_of_ids fun loop => ids_fill loop _ _
  | push courier hmem hstage =>
    exact waitingOn_modifyLoop_of_ids (f := (·.push courier.id)) fun _ => rfl
  | unpark courier hmem hstage => exact waitingOn_modifyLoop_of_ids (f := (·.unpark)) fun _ => rfl
  | _ => rfl

namespace Orderly

variable (h : Orderly n c) (hroom : n < 2 ^ 64)
include h hroom

theorem exists_sound :
    ∃ t : Traffic Reaction, Sound t ∧ t.relay = c.relay ∧ t.underway = c.couriers := by
  obtain ⟨t, hreach, hrelay, hunderway, rfl⟩ := h.traffic
  exact ⟨t, sound_of_reachable hreach hroom, hrelay, hunderway⟩

/-! ## From wherever it stands -/

theorem completable_of_ready (hwaits : id ∈ c.relay.waitingOn l) (hready : c.relay.ReadyOn l id) :
    Completable c l id := by
  obtain ⟨t, hsound, hrelay, -⟩ := h.exists_sound hroom
  obtain ⟨e, hw, rfl⟩ := mem_waitingOn.mp hwaits
  obtain ⟨payload, hslot, -⟩ := hsound.slot_of_ready (hrelay ▸ hw) (hrelay ▸ hready)
  exact ⟨c, .refl, hready, e, payload, hw, rfl, hslot⟩

/-- A signal that has filled the slot goes on to put the number in the queue. -/
theorem completable_of_filled {courier : Courier} (hmem : courier ∈ c.couriers)
    (hstage : courier.stage = .filled) (hwaits : courier.id ∈ c.relay.waitingOn courier.loop) :
    Completable c courier.loop courier.id := by
  have hpush := Works.push c courier hmem hstage
  obtain ⟨e, hw, -⟩ := mem_waitingOn.mp hwaits
  refine .after hpush ((h.works hpush).completable_of_ready hroom
    (waitingOn_of_works hpush ▸ hwaits) ?_)
  exact readyOn_push.mpr (.inr ⟨rfl, rfl, hw.alive⟩)

/-- One that has taken the call goes on to fill its slot. -/
theorem completable_of_courier {courier : Courier} (hmem : courier ∈ c.couriers)
    (hwaits : courier.id ∈ c.relay.waitingOn courier.loop) :
    Completable c courier.loop courier.id := by
  cases hstage : courier.stage with
  | taken =>
    have hfill := Works.fill c courier hmem hstage
    let filled : Courier := { courier with stage := .filled }
    have honward : Completable _ filled.loop filled.id := (h.works hfill).completable_of_filled hroom
      (List.mem_cons_self ..) rfl (waitingOn_of_works hfill ▸ hwaits)
    exact .after hfill honward
  | filled => exact h.completable_of_filled hroom hmem hstage hwaits
  | pushed =>
    obtain ⟨t, hsound, hrelay, hunderway⟩ := h.exists_sound hroom
    obtain ⟨e, hw, hsame⟩ := mem_waitingOn.mp hwaits
    obtain ⟨-, -, hready⟩ := hsound.standing_of_courier (hunderway ▸ hmem) (hrelay ▸ hw) hsame
    exact h.completable_of_ready hroom hwaits (hrelay ▸ hsame ▸ hready.mpr hstage)

section Registered

variable (hregistered : (id, l) ∈ c.relay.inFlight) (hwaits : id ∈ c.relay.waitingOn l)
include hregistered hwaits

/-- A completion that was handed over takes its call out of the registry. -/
theorem completable_of_handed {signal : Signal} (hmem : signal ∈ c.handed)
    (habout : signal.call? = some id) : Completable c l id := by
  obtain ⟨t, hsound, hrelay, -⟩ := h.exists_sound hroom
  have hknown : (c.relay.take id).1 = some l := hrelay ▸ take_of_inFlight hsound (hrelay ▸ hregistered)
  have henter := Works.enter c signal id l hmem habout hknown
  let taken : Courier := ⟨id, l, signal.completion, .taken⟩
  have honward : Completable _ taken.loop taken.id := (h.works henter).completable_of_courier hroom
    (List.mem_cons_self ..) (waitingOn_of_works henter ▸ hwaits)
  exact .after henter honward

/-- A task that is finished hands its completion over. -/
theorem completable_of_executing (hup : c.runtime.phase = .running) {task : Task}
    (hmem : task ∈ c.executing) (habout : task.call? = some id) : Completable c l id := by
  have hfinish := Works.finish c task hmem
  obtain ⟨signal, hsent, habout'⟩ := hands_runTask (h.bound hup) task
  exact .after hfinish ((h.works hfinish).completable_of_handed hroom hregistered hwaits
    (List.mem_append_right _ hsent) (habout'.trans habout))

/-- A call that has its task or its completion can be completed. -/
theorem completable_of_charged (hcharged : c.Charged id) : Completable c l id := by
  obtain ⟨hup, task, hmem, habout⟩ | ⟨signal, hmem, habout⟩ := hcharged
  · obtain hqueued | hexecuting := List.mem_append.mp hmem
    · have hpick := Works.pick c task hqueued
      exact .after hpick ((h.works hpick).completable_of_executing hroom hregistered hwaits hup
        (List.mem_cons_self ..) habout)
    · exact h.completable_of_executing hroom hregistered hwaits hup hexecuting habout
  · exact h.completable_of_handed hroom hregistered hwaits hmem habout

end Registered

theorem completable_of_carried (hwaits : id ∈ c.relay.waitingOn l) (hcarried : c.Carried l id) :
    Completable c l id := by
  obtain ⟨t, hsound, hrelay, hunderway⟩ := h.exists_sound hroom
  obtain ⟨e, hw, rfl⟩ := mem_waitingOn.mp hwaits
  -- by how far the completion has come: still to be taken, on its way, or signalled
  cases hsound.standing (hrelay ▸ hw) with
  | inFlight hregistered _ hunready =>
    rw [hrelay] at hregistered hunready
    have honward := h.completable_of_charged hroom hregistered hwaits
    cases hcarried with
    | task task hmem habout hup _ => exact honward (.inl ⟨hup, task, hmem, habout⟩)
    | handed signal hmem habout => exact honward (.inr ⟨signal, hmem, habout⟩)
    | underway courier hmem habout _ =>
      have htaken := hsound.courierTaken (hunderway ▸ hmem)
      exact absurd (habout ▸ List.mem_map_of_mem htaken) (hsound.flightUntaken (hrelay ▸ hregistered))
    | ready hready => exact absurd hready hunready
  | underway courier hmem hsame hloop _ _ =>
    subst hloop
    rw [← hsame] at hwaits ⊢
    exact h.completable_of_courier hroom (hunderway ▸ hmem) hwaits
  | settled _ _ _ _ hready => exact h.completable_of_ready hroom hwaits (hrelay ▸ hready)

/-- Every call that waits is carried, or it is in the registry of a runtime that was destroyed. -/
theorem carried_or_down (hwaits : id ∈ c.relay.waitingOn l) :
    c.Carried l id ∨ c.runtime.phase = .destroyed ∧ (id, l) ∈ c.relay.inFlight := by
  obtain ⟨t, hsound, hrelay, hunderway⟩ := h.exists_sound hroom
  obtain ⟨e, hw, rfl⟩ := mem_waitingOn.mp hwaits
  cases hsound.standing (hrelay ▸ hw) with
  | inFlight hregistered _ _ =>
    rw [hrelay] at hregistered
    obtain hdown | ⟨hup, task, hmem, habout⟩ | ⟨signal, hmem, habout⟩ := h.charged e.id l hregistered
    · exact .inr ⟨hdown, hregistered⟩
    · exact .inl (.task task hmem habout hup (h.bound hup))
    · exact .inl (.handed signal hmem habout)
  | underway courier hmem hsame hloop _ _ =>
    exact .inl (.underway courier (hunderway ▸ hmem) hsame hloop)
  | settled _ _ _ _ hready => exact .inl (.ready (hrelay ▸ hready))

end Orderly

/-! ## After the end of the runtime -/

theorem phase_of_works (hworks : Works c c') : c'.runtime.phase = c.runtime.phase := by
  cases hworks with
  | finish task hmem => exact (calm_runTask c.runtime task).phase
  | receive signal hmem hother => exact congrArg (·.phase) (receiveSignal_spec c.world.session signal).1
  | _ => rfl

/-- Once the runtime was destroyed, no step of a worker brings anything about that carries a call. -/
theorem Orderly.carried_of_works (h : Orderly n c) (hdown : c.runtime.phase = .destroyed)
    (hworks : Works c c') (hcarried : c'.Carried l id) : c.Carried l id := by
  have hdown' : c'.runtime.phase = .destroyed := (phase_of_works hworks).trans hdown
  cases hcarried with
  | task task hmem habout hup hbound => exact absurd (hdown'.symm.trans hup) nofun
  | handed signal hmem habout =>
    cases hworks with
    | finish task hexecuting =>
      -- a runtime that is down has no entry to hand a completion to, or no worker
      rcases h.ended hdown with hunbound | hnone
      · have hsilent := (silent_runTask hunbound task).trans h.received
        rw [hsilent, List.append_nil] at hmem
        exact .handed signal hmem habout
      · rw [hnone] at hexecuting
        cases hexecuting
    | receive | ignore | enter => exact .handed signal (List.mem_of_mem_erase hmem) habout
    | _ => exact .handed signal hmem habout
  | underway courier hmem habout hloop =>
    cases hworks with
    | enter signal id' l' hhanded habout' _ =>
      rcases List.mem_cons.mp hmem with rfl | hmem
      · exact .handed signal hhanded (habout ▸ habout')
      · exact .underway courier hmem habout hloop
    | fill courier' hmem' | push courier' hmem' =>
      rcases List.mem_cons.mp hmem with rfl | hmem
      · exact .underway courier' hmem' habout hloop
      · exact .underway courier (List.mem_of_mem_erase hmem) habout hloop
    | unpark => exact .underway courier (List.mem_of_mem_erase hmem) habout hloop
    | _ => exact .underway courier hmem habout hloop
  | ready hready =>
    cases hworks with
    | receive signal _ hother =>
      exact .ready ((congrArg (·.ReadyOn l id) (relay_receiveSignal hother)).mp hready)
    | fill courier =>
      exact .ready ((readyOn_modifyLoop_of_ready (f := (·.fill courier.id courier.payload))
        fun _ => rfl).mp hready)
    | push courier hmem =>
      rcases readyOn_push.mp hready with hready | ⟨hloop, hsame, -⟩
      · exact .ready hready
      · exact .underway courier hmem hsame.symm hloop.symm
    | unpark courier =>
      exact .ready ((readyOn_modifyLoop_of_ready (f := (·.unpark)) fun _ => rfl).mp hready)
    | _ => exact .ready hready

theorem Orderly.carried_of_worksTo (h : Orderly n c) (hdown : c.runtime.phase = .destroyed)
    (honward : WorksTo c c') (hcarried : c'.Carried l id) : c.Carried l id := by
  induction honward using Relation.ReflTransGen.head_induction_on with
  | refl => exact hcarried
  | head hworks _ ih =>
    exact h.carried_of_works hdown hworks (ih (h.works hworks) ((phase_of_works hworks).trans hdown))

/-! ## Which calls are stranded -/

/-- **No call is stranded until the runtime is destroyed.** In every state that users and workers come
to, and for every call that a loop waits for which is alive:

* as long as the runtime was not destroyed, something is left that can complete the call;
* something is left exactly if workers alone can bring the call to its loop, with its payload;
* a call that nothing is left for is still in the registry, and it is not ready.

Contexts, handles and loops are dropped at any point. The bounds are the widths of a call number and of a
token. -/
theorem carried_until_destroyed (h : c.ReachableIn n) (hroom : n < 2 ^ 64)
    (hinRange : InRange c.world.session) (hwaits : id ∈ c.relay.waitingOn l) :
    (c.runtime.phase ≠ .destroyed → c.Carried l id) ∧
      (c.Carried l id ↔ c.Completable l id) ∧
      (¬ c.Carried l id → (id, l) ∈ c.relay.inFlight ∧ ¬ c.relay.ReadyOn l id) := by
  have horderly := orderly_of_reachable h hinRange
  have hstands := horderly.carried_or_down hroom hwaits
  refine ⟨fun hup => ?_, ⟨horderly.completable_of_carried hroom hwaits, fun hcompletable => ?_⟩,
    fun hstranded => ?_⟩
  · exact hstands.resolve_right fun hdown => hup hdown.1
  · obtain ⟨c', honward, hready, -⟩ := hcompletable
    obtain hcarried | ⟨hdown, -⟩ := hstands
    · exact hcarried
    · exact horderly.carried_of_worksTo hdown honward (.ready hready)
  · obtain ⟨-, hregistered⟩ := hstands.resolve_left hstranded
    exact ⟨hregistered, fun hready => hstranded (.ready hready)⟩

/-! ## A call whose task goes with its runtime -/

/-- A cache of the instance was opened. -/
def cached : World := World.opened.next
  (.openCache 0 { handle := { target := ⟨21⟩, cls := .processor }, name := "grid" } (some "cache"))
  (.ok (some { target := ⟨24⟩, cls := .cache }))

def looping : World := cached.next .openLoop (.ok none)

/-- A loop waits for a put. -/
def putting : World := looping.next
  (.issue 0 { target := ⟨24⟩, cls := .cache } .put (Cache.putRequest 1 2) 0 (.note 5)) (.ok none)

/-- The context was dropped before a worker took the task. -/
def torn : World := putting.next (.dropContext 0) (.ok none)

theorem looping_reachable : ReachableIn 0 { world := looping } := by
  have hcached : World.opened.Goes (.openCache 0
      { handle := { target := ⟨21⟩, cls := .processor }, name := "grid" } (some "cache"))
      (.ok (some { target := ⟨24⟩, cls := .cache })) cached := by
    refine World.goes_next (fun handle hneeds => ?_) (by decide +kernel)
    obtain rfl := Option.some.inj hneeds
    exact List.mem_singleton_self _
  have hlooping : Crew.cached.Goes .openLoop (.ok none) looping :=
    World.goes_next nofun (by decide +kernel)
  have hunused : World.Unused World.unstarted := ⟨⟨rfl, rfl, rfl, rfl, rfl, rfl⟩, rfl, rfl⟩
  refine ⟨World.unstarted, hunused, rfl, ?_⟩
  have hbefore := (((ReachesIn.refl _).goes World.goes_started nofun).goes World.goes_opened nofun)
  exact (hbefore.goes hcached nofun).goes hlooping nofun

theorem goes_putting : looping.Goes (.issue 0 { target := ⟨24⟩, cls := .cache } .put
    (Cache.putRequest 1 2) 0 (.note 5)) (.ok none) putting := by
  refine World.goes_next (fun handle hneeds => ?_) (by decide +kernel)
  obtain rfl := Option.some.inj hneeds
  exact List.mem_cons_self ..

theorem alive_looping : looping.session.relay.Alive 0 := by
  have halive : (looping.session.relay.loop? 0).isSome = true := by decide +kernel
  exact halive

theorem putting_reachable : ReachableIn 1 { world := putting } := by
  obtain ⟨s, hunused, htasks, hreaches⟩ := looping_reachable
  refine ⟨s, hunused, htasks, hreaches.goes goes_putting fun l hon => ?_⟩
  obtain rfl := Option.some.inj hon
  exact alive_looping

theorem torn_reachable : ReachableIn 1 { world := torn } := by
  obtain ⟨s, hunused, htasks, hreaches⟩ := putting_reachable
  have hdropped : putting.Goes (.dropContext 0) (.ok none) torn :=
    World.goes_next nofun (by decide +kernel)
  exact ⟨s, hunused, htasks, hreaches.goes hdropped nofun⟩

/-! These worlds are closed terms, and no comparison below is to compute them. -/

attribute [irreducible] looping putting torn

/-- Before, the task carries the call, and workers can bring it to its loop. -/
theorem putting_carried : ReachableIn 1 { world := putting } ∧ InRange putting.session ∧
    1 ∈ putting.session.relay.waitingOn 0 ∧ putting.session.runtime.phase ≠ .destroyed ∧
    Carried { world := putting } 0 1 ∧ Completable { world := putting } 0 1 := by
  obtain ⟨hinRange, hwaits, hup⟩ : InRange putting.session ∧ 1 ∈ putting.session.relay.waitingOn 0 ∧
      putting.session.runtime.phase ≠ .destroyed := by
    unfold InRange
    decide +kernel
  obtain ⟨hcarried, hcompletable, -⟩ :=
    carried_until_destroyed putting_reachable (by decide) hinRange hwaits
  exact ⟨putting_reachable, hinRange, hwaits, hup, hcarried hup, hcompletable.mp (hcarried hup)⟩

/-- **The end of a runtime strands a call.** The loop waits for it, nothing is left that can complete it,
and a run of the loop waits for ever. -/
theorem torn_strands : ReachableIn 1 { world := torn } ∧ InRange torn.session ∧
    1 ∈ torn.session.relay.waitingOn 0 ∧ ¬ Carried { world := torn } 0 1 ∧
    ¬ Completable { world := torn } 0 1 ∧ ((Session.run 0).run.run torn.session).1 = .ok none := by
  obtain ⟨hinRange, hwaits, hdown, hqueue, hendless⟩ : InRange torn.session ∧
      1 ∈ torn.session.relay.waitingOn 0 ∧ torn.session.runtime.phase = .destroyed ∧
      torn.session.relay.queueOn 0 = [] ∧
      ((Session.run 0).run.run torn.session).1 = .ok none := by
    unfold InRange
    decide +kernel
  -- a destroyed runtime runs no task, and no signal is on its way
  have hstranded : ¬ Carried { world := torn } 0 1 := by
    intro hcarried
    cases hcarried with
    | task task hmem habout hup hbound => exact absurd (hdown.symm.trans hup) (by decide)
    | handed signal hmem habout => cases hmem
    | underway courier hmem habout hloop => cases hmem
    | ready hready =>
      obtain ⟨loop, hfound, hmem⟩ := hready
      rw [queueOn, hfound] at hqueue
      have hempty : loop.ready = [] := hqueue
      rw [hempty] at hmem
      cases hmem
  have horderly := orderly_of_reachable torn_reachable hinRange
  -- what the crew still does after the end carries no call that was not carried before
  have hincompletable : ¬ Completable { world := torn } 0 1 := by
    intro hcompletable
    obtain ⟨c', honward, hready, -⟩ := hcompletable
    exact hstranded (horderly.carried_of_worksTo hdown honward (.ready hready))
  exact ⟨torn_reachable, hinRange, hwaits, hstranded, hincompletable, hendless⟩

end GridBridge.Session.Crew
