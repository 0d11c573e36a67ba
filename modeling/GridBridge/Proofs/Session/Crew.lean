import Mathlib.Logic.Relation
import GridBridge.Proofs.Relay.Registry
import GridBridge.Proofs.Session.Upkeep

/-!
# Crews: a session whose workers go on beside its users

A **`Crew`** is a world with what the workers of its runtime are at: the tasks that they carry out, the
completions that they have handed to the entry, and the signals on their way to a loop. `Works` is one
step of a worker, and users act in between (`ReachesIn`). A worker that takes its turn in one go does so
in steps of this kind (`worksTo_work`), and each of them is a step of the traffic of the relay at most
(`Works.underneath`).

**`Orderly`** is the invariant: every call in the registry has a task or a completion, unless the runtime
was destroyed.
-/

namespace GridBridge.Managed

open Protocol Seam Relay

/-! ## What a completion is for -/

/-- The call that a completion is for, if its callback is that of the relay. -/
def callOf? (callback data : Word) : Option CallId :=
  match callback with
  | .callback .relay => data.number?
  | _ => none

theorem number?_ofNat64 (id : CallId) : (Word.ofNat64 id).number? = some id := by
  simp [Word.ofNat64, Word.number?]

def Task.call? (task : Task) : Option CallId := callOf? task.callback task.data

/-- A completion reaches the relay through the entry of the bridge. -/
def Signal.call? (signal : Signal) : Option CallId :=
  match signal.entry with
  | .completion => callOf? signal.callback signal.data
  | .journal => none

/-- A worker leaves the entry and the other tasks alone. -/
theorem kept_runTask (rt : Runtime) (task : Task) :
    (rt.runTask task).entry = rt.entry ∧ (rt.runTask task).tasks = rt.tasks := by
  unfold Runtime.runTask
  split
  dsimp only
  split <;> exact ⟨rfl, rfl⟩

/-- Where the entry of the bridge is bound, a task hands a completion to it, for its call. -/
theorem hands_runTask {rt : Runtime} (hbound : rt.entry = some .completion) (task : Task) :
    ∃ signal ∈ (rt.runTask task).outbox, signal.call? = task.call? := by
  unfold Runtime.runTask Runtime.signal?
  rw [hbound]
  split
  rename_i result grid _
  let signal : Signal := ⟨.completion, task.callback, task.data, Runtime.completionOf result⟩
  refine ⟨signal, List.mem_append_right _ ?_, rfl⟩
  split <;> exact List.mem_cons_self ..

/-- Where no entry is bound, nothing is handed over. -/
theorem silent_runTask {rt : Runtime} (hunbound : rt.entry = none) (task : Task) :
    (rt.runTask task).outbox = rt.outbox := by
  unfold Runtime.runTask Runtime.signal?
  rw [hunbound]
  rfl

end GridBridge.Managed

namespace GridBridge.Session

open Protocol Seam Bridge Managed Relay

variable {s : Session} {act : Act} {outcome : Outcome} {n : Nat}

/-- A completion for a call signals the relay. -/
theorem receiveSignal_of_call {signal : Signal} {id : CallId} (habout : signal.call? = some id) :
    receiveSignal s signal = { s with relay := s.relay.signal id signal.completion } := by
  obtain ⟨entry, callback, data, completion⟩ := signal
  cases entry with
  | journal => cases habout
  | completion =>
    cases callback with
    | callback target =>
      cases target with
      | relay =>
        have hnumber : data.number? = some id := habout
        simp only [receiveSignal, receiveCompletion, receiveAt, hnumber]
      | journal => cases habout
    | number _ | buffer _ => cases habout

/-- Any other completion is none of the relay's. -/
theorem relay_receiveSignal {signal : Signal} (hother : signal.call? = none) :
    (receiveSignal s signal).relay = s.relay := by
  obtain ⟨entry, callback, data, completion⟩ := signal
  cases entry with
  | journal => rfl
  | completion =>
    cases callback with
    | callback target =>
      cases target with
      | relay =>
        have hnone : data.number? = none := hother
        simp only [receiveSignal, receiveCompletion, receiveAt, hnone]
      | journal => rfl
    | number _ | buffer _ => rfl

/-! ## Crews -/

structure Crew where
  world : World
  /-- Tasks that workers have taken off the queue and not finished. -/
  executing : List Task := []
  /-- Completions that were handed to the entry and have reached neither relay nor journal. -/
  handed : List Signal := []
  /-- Signals that have taken their call out of the registry. -/
  couriers : List Courier := []

namespace Crew

abbrev runtime (c : Crew) : Runtime := c.world.session.runtime

abbrev relay (c : Crew) : Relay Reaction := c.world.session.relay

/-- The session is another one. -/
def withSession (c : Crew) (session : Session) : Crew := { c with world := { c.world with session } }

def withRuntime (c : Crew) (runtime : Runtime) : Crew :=
  c.withSession { c.world.session with runtime }

def withRelay (c : Crew) (relay : Relay Reaction) : Crew :=
  c.withSession { c.world.session with relay }

/-- A loop changes, and these signals are on their way then. -/
def alter (c : Crew) (l : LoopId) (change : EventLoop Reaction → EventLoop Reaction)
    (couriers : List Courier) : Crew :=
  { c.withRelay (c.relay.modifyLoop l change) with couriers }

/-- A signal goes on at its next stage. -/
def advance (c : Crew) (courier : Courier) (stage : Stage) : List Courier :=
  { courier with stage } :: c.couriers.erase courier

/-- One step of a worker. -/
inductive Works : Crew → Crew → Prop where
  | pick (c : Crew) (task : Task) (hmem : task ∈ c.runtime.tasks) :
      Works c { c.withRuntime { c.runtime with tasks := c.runtime.tasks.erase task } with
        executing := task :: c.executing }
  /-- The task is carried out, and its completion is handed to the entry if one is bound by then. -/
  | finish (c : Crew) (task : Task) (hmem : task ∈ c.executing) :
      Works c { c.withRuntime { c.runtime.runTask task with outbox := [] } with
        executing := c.executing.erase task
        handed := c.handed ++ (c.runtime.runTask task).outbox }
  /-- A runtime that was destroyed may let go of a task half-way. -/
  | abandon (c : Crew) (task : Task) (hmem : task ∈ c.executing)
    (hdown : c.runtime.phase = .destroyed) :
      Works c { c with executing := c.executing.erase task }
  /-- A completion that is not for the relay. -/
  | receive (c : Crew) (signal : Signal) (hmem : signal ∈ c.handed) (hother : signal.call? = none) :
      Works c { c.withSession (receiveSignal c.world.session signal) with
        handed := c.handed.erase signal }
  | ignore (c : Crew) (signal : Signal) (id : CallId) (hmem : signal ∈ c.handed)
      (habout : signal.call? = some id) (hunknown : (c.relay.take id).1 = none) :
      Works c { c with handed := c.handed.erase signal }
  | enter (c : Crew) (signal : Signal) (id : CallId) (l : LoopId) (hmem : signal ∈ c.handed)
      (habout : signal.call? = some id) (hknown : (c.relay.take id).1 = some l) :
      Works c { c.withRelay (c.relay.take id).2 with
        handed := c.handed.erase signal
        couriers := ⟨id, l, signal.completion, .taken⟩ :: c.couriers }
  | fill (c : Crew) (courier : Courier) (hmem : courier ∈ c.couriers)
    (hstage : courier.stage = .taken) :
      Works c (c.alter courier.loop (·.fill courier.id courier.payload) (c.advance courier .filled))
  | push (c : Crew) (courier : Courier) (hmem : courier ∈ c.couriers)
    (hstage : courier.stage = .filled) :
      Works c (c.alter courier.loop (·.push courier.id) (c.advance courier .pushed))
  | unpark (c : Crew) (courier : Courier) (hmem : courier ∈ c.couriers)
      (hstage : courier.stage = .pushed) :
      Works c (c.alter courier.loop (·.unpark) (c.couriers.erase courier))

/-- Steps of workers in a row. -/
abbrev WorksTo : Crew → Crew → Prop := Relation.ReflTransGen Works

/-- One crew comes after another one: workers take their steps, and users act in between and issue so
many calls, each on a loop that is alive. -/
inductive ReachesIn : Nat → Crew → Crew → Prop where
  | refl (c : Crew) : ReachesIn 0 c c
  | acts {n : Nat} {c c' : Crew} {w : World} {act : Act} {outcome : Outcome}
      (hbefore : ReachesIn n c c') (hgoes : c'.world.Goes act outcome w) (huser : act ≠ .work)
      (halive : ∀ l, act.loop? = some l → c'.relay.Alive l) :
      ReachesIn (n + act.calls) c { c' with world := w }
  | works {n : Nat} {c c' c'' : Crew} (hbefore : ReachesIn n c c') (hworks : Works c' c'') :
      ReachesIn n c c''

/-- A crew that a session comes to from its beginning, issuing so many calls. -/
def ReachableIn (n : Nat) (c : Crew) : Prop :=
  ∃ s, World.Unused s ∧ s.runtime.tasks = [] ∧ ReachesIn n { world := { session := s } } c

/-! ## A turn in one go -/

/-- A signal that has taken its call goes on until it has woken the loop. -/
theorem worksTo_unpark (c : Crew) (courier : Courier) (hmem : courier ∈ c.couriers)
    (hstage : courier.stage = .taken) :
    WorksTo c { c.withRelay (((c.relay.modifyLoop courier.loop
        (·.fill courier.id courier.payload)).modifyLoop courier.loop
        (·.push courier.id)).modifyLoop courier.loop (·.unpark)) with
      couriers := c.couriers.erase courier } := by
  let filled : Crew :=
    c.alter courier.loop (·.fill courier.id courier.payload) (c.advance courier .filled)
  let pushed : Crew := filled.alter courier.loop (·.push courier.id) (c.advance courier .pushed)
  have hfill : Works c filled := .fill c courier hmem hstage
  have hpush := Works.push filled { courier with stage := .filled } (List.mem_cons_self ..) rfl
  have hunpark := Works.unpark pushed { courier with stage := .pushed } (List.mem_cons_self ..) rfl
  simp only [filled, pushed, alter, advance, List.erase_cons_head] at hfill hpush hunpark
  exact .head hfill (.head hpush (.single hunpark))

/-- A completion that was handed over is received in one go. -/
theorem worksTo_receiveSignal (w : World) (signal : Signal) (rest : List Signal) :
    WorksTo { world := w, handed := signal :: rest }
      { world := { w with session := receiveSignal w.session signal }, handed := rest } := by
  have hmem : signal ∈ signal :: rest := List.mem_cons_self ..
  have hgone : (signal :: rest).erase signal = rest := List.erase_cons_head ..
  -- a signal about no call is received, one about an unknown call is dropped
  cases habout : signal.call? with
  | none =>
    have hstep := Works.receive { world := w, handed := signal :: rest } signal hmem habout
    rw [hgone] at hstep
    exact .single hstep
  | some id =>
    rw [receiveSignal_of_call habout]
    cases htaken : (w.session.relay.take id).1 with
    | none =>
      have hstep := Works.ignore { world := w, handed := signal :: rest } signal id hmem habout htaken
      rw [hgone] at hstep
      rw [signal_of_unknown htaken]
      exact .single hstep
    | some l =>
      have henter := Works.enter { world := w, handed := signal :: rest } signal id l hmem habout htaken
      have honward := Relation.ReflTransGen.head henter (worksTo_unpark _ _ (List.mem_cons_self ..) rfl)
      simp only [hgone, List.erase_cons_head] at honward
      rw [signal_of_known htaken]
      exact honward

theorem worksTo_receiveSignals (w : World) (signals : List Signal) :
    WorksTo { world := w, handed := signals }
      { world := { w with session := signals.foldl receiveSignal w.session } } := by
  induction signals generalizing w with
  | nil => exact .refl
  | cons signal rest ih => exact (worksTo_receiveSignal w signal rest).trans (ih _)

/-- A worker runs the oldest task, if there is one, and what it completes is received. -/
theorem ends_workOnce :
    Ends workOnce (fun _ s' => s' = s ∨ ∃ task rest, s.runtime.tasks = task :: rest ∧
    s' = receiveAll { s with runtime := { s.runtime with tasks := rest }.runTask task }) s := by
  refine ends_bind (ends_get ?_)
  unfold Runtime.work?
  cases htasks : s.runtime.tasks with
  | nil => exact ends_pure (.inl rfl)
  | cons task rest => exact ends_bind (ends_modify (ends_pure (.inr ⟨task, rest, rfl, rfl⟩)))

/-- A worker may run any task of the queue in one go, and what it completes is received. -/
def turn (w : World) (task : Task) : World := { w with
  session := receiveAll { w.session with
    runtime := { w.session.runtime with
      tasks := w.session.runtime.tasks.erase task }.runTask task } }

theorem worksTo_turn (w : World) (task : Task) (hmem : task ∈ w.session.runtime.tasks) :
    WorksTo { world := w } { world := turn w task } := by
  let picked : Crew := {
    world := { w with session := { w.session with
      runtime := { w.session.runtime with tasks := w.session.runtime.tasks.erase task } } }
    executing := [task] }
  have hpick := Works.pick { world := w } task hmem
  have hfinish := Works.finish picked task (List.mem_cons_self ..)
  simp only [picked, List.erase_cons_head, List.nil_append] at hpick hfinish
  exact .head hpick (.head hfinish (worksTo_receiveSignals _ _))

/-- **A worker that takes its turn in one go** takes steps of workers. -/
theorem worksTo_work {w w' : World} (hgoes : w.Goes .work outcome w') :
    WorksTo { world := w } { world := w' } := by
  rw [hgoes.after]
  obtain ⟨ran, s₁, hworked, hended⟩ := run_bind_eq_ok hgoes.ran
  cases hended
  obtain hsame | ⟨task, rest, htasks, hreceived⟩ := ends_workOnce _ _ hworked
  · rw [hsame]
    exact .refl
  · have honward := worksTo_turn w task (by rw [htasks]; exact List.mem_cons_self ..)
    unfold turn at honward
    rw [htasks, List.erase_cons_head, ← hreceived] at honward
    exact honward

theorem ReachesIn.worksTo {c c' c'' : Crew} (hbefore : ReachesIn n c c') (hworks : WorksTo c' c'') :
    ReachesIn n c c'' := by
  induction hworks with
  | refl => exact hbefore
  | tail _ hnext ih => exact ih.works hnext

/-- Whatever users and workers do in one go, a crew at rest comes to. -/
theorem ReachesIn.goes {c : Crew} {w w' : World} (hbefore : ReachesIn n c { world := w })
    (hgoes : w.Goes act outcome w') (halive : ∀ l, act.loop? = some l → w.session.relay.Alive l) :
    ReachesIn (n + act.calls) c { world := w' } := by
  by_cases hturn : act = .work
  · subst hturn
    exact hbefore.worksTo (worksTo_work hgoes)
  · exact hbefore.acts hgoes hturn halive

/-! ## What a step of a worker is underneath -/

/-- A worker that takes a task on still has it to do. -/
theorem perm_pick {c : Crew} {task : Task} (hmem : task ∈ c.runtime.tasks) :
    (c.runtime.tasks.erase task ++ task :: c.executing).Perm (c.runtime.tasks ++ c.executing) :=
  List.perm_middle.trans ((List.perm_cons_erase hmem).symm.append_right _)

/-- The relay and its signals come from one crew to the other by steps of traffic that issue and run
nothing. If one of them takes a call out of the registry, it is with a completion that was handed over. -/
structure Underneath (c : Crew) (t t' : Traffic Reaction) (c' : Crew) : Prop where
  steps : Steps t t'
  relay : t'.relay = c'.relay
  underway : t'.underway = c'.couriers
  begun : t'.begun = t.begun
  issued : t'.issued = t.issued
  runs : t'.runs = t.runs
  taken : t'.taken = t.taken ∨ ∃ signal ∈ c.handed, ∃ id, signal.call? = some id ∧
    t'.taken = t.taken ++ [(id, signal.completion)]

section Underneath

variable {c c' : Crew} {t : Traffic Reaction} (hrelay : t.relay = c.relay)
  (hunderway : t.underway = c.couriers)
include hrelay hunderway

theorem underneath_refl (hrelay' : c'.relay = c.relay) (hcouriers : c'.couriers = c.couriers) :
    Underneath c t t c' :=
  ⟨.refl t, hrelay.trans hrelay'.symm, hunderway.trans hcouriers.symm, rfl, rfl, rfl, .inl rfl⟩

/-- A step of a worker is one step of traffic at most. -/
theorem Works.underneath (hworks : Works c c') : ∃ t', Underneath c t t' c' := by
  -- picking a task and running it does not touch the relay; the rest are the steps of a courier
  cases hworks with
  | pick | finish | abandon | ignore => exact ⟨t, underneath_refl hrelay hunderway rfl rfl⟩
  | receive signal hmem hother =>
    exact ⟨t, underneath_refl hrelay hunderway (relay_receiveSignal hother) rfl⟩
  | enter signal id l hmem habout hknown =>
    have htake := Relay.Step.take t id signal.completion l (hrelay ▸ hknown)
    refine ⟨_, .head htake (.refl _), ?_, ?_, rfl, rfl, rfl, .inr ⟨signal, hmem, id, habout, rfl⟩⟩
    · rw [hrelay]
      rfl
    · rw [hunderway]
  | fill courier hmem hstage =>
    have hfill := Relay.Step.fill t courier (hunderway ▸ hmem) hstage
    refine ⟨_, .head hfill (.refl _), ?_, ?_, rfl, rfl, rfl, .inl rfl⟩
    · rw [hrelay]
      rfl
    · rw [Traffic.advance, hunderway]
      rfl
  | push courier hmem hstage =>
    have hpush := Relay.Step.push t courier (hunderway ▸ hmem) hstage
    refine ⟨_, .head hpush (.refl _), ?_, ?_, rfl, rfl, rfl, .inl rfl⟩
    · rw [hrelay]
      rfl
    · rw [Traffic.advance, hunderway]
      rfl
  | unpark courier hmem hstage =>
    have hunpark := Relay.Step.unpark t courier (hunderway ▸ hmem) hstage
    refine ⟨_, .head hunpark (.refl _), ?_, ?_, rfl, rfl, rfl, .inl rfl⟩
    · rw [hrelay]
      rfl
    · rw [hunderway]
      rfl

end Underneath

/-! ## The invariant -/

/-- The call has a task in a runtime that is up, or a completion that was handed over. -/
def Charged (c : Crew) (id : CallId) : Prop :=
  (c.runtime.phase = .running ∧ ∃ task ∈ c.runtime.tasks ++ c.executing, task.call? = some id) ∨
    ∃ signal ∈ c.handed, signal.call? = some id

/-- Between the steps of workers and the acts of users. -/
structure Orderly (n : Nat) (c : Crew) : Prop where
  settled : ∃ leaked, c.world.Settled leaked
  received : c.runtime.outbox = []
  traffic : ∃ t : Traffic Reaction, Relay.Reachable t ∧ t.relay = c.relay ∧ t.underway = c.couriers ∧
    t.begun = n
  /-- A runtime that is up has its entry, and only such a runtime has tasks in its queue. -/
  bound : c.runtime.phase = .running → c.runtime.entry = some .completion
  halted : c.runtime.phase ≠ .running → c.runtime.tasks = []
  /-- A runtime that is not up has no worker that could still hand a completion over. -/
  fresh : c.runtime.phase = .idle → c.executing = []
  ended : c.runtime.phase = .destroyed → c.runtime.entry = none ∨ c.executing = []
  charged : ∀ id l, (id, l) ∈ c.relay.inFlight → c.runtime.phase = .destroyed ∨ c.Charged id

variable {c c' : Crew} {id : CallId}

/-- A completion leaves the entry that is none of the call's. -/
theorem Charged.erase (h : c.Charged id) {signal : Signal} (hother : signal.call? ≠ some id)
    (hphase : c'.runtime.phase = c.runtime.phase) (htasks : c'.runtime.tasks = c.runtime.tasks)
    (hexecuting : c'.executing = c.executing) (hhanded : c'.handed = c.handed.erase signal) :
    c'.Charged id := by
  unfold Charged
  rw [hphase, htasks, hexecuting, hhanded]
  refine h.imp_right fun ⟨signal', hmem, habout⟩ => ⟨signal', (List.mem_erase_of_ne ?_).mpr hmem,
    habout⟩
  rintro rfl
  exact hother habout

/-- A task of the call is carried out and hands a completion over, or the call has what it had. -/
theorem Charged.finish (h : c.Charged id)
    (hbound : c.runtime.phase = .running → c.runtime.entry = some .completion) (task : Task) :
    Charged { c.withRuntime { c.runtime.runTask task with outbox := [] } with
      executing := c.executing.erase task
      handed := c.handed ++ (c.runtime.runTask task).outbox } id := by
  obtain ⟨-, htasks⟩ := kept_runTask c.runtime task
  rcases h with ⟨hup, task', hmem, habout⟩ | ⟨signal, hmem, habout⟩
  · by_cases hsame : task' = task
    · obtain ⟨signal, hsent, habout'⟩ := hands_runTask (hbound hup) task
      exact .inr ⟨signal, List.mem_append_right _ hsent, habout'.trans (hsame ▸ habout)⟩
    · refine .inl ⟨(calm_runTask c.runtime task).phase.trans hup, task', ?_, habout⟩
      rw [List.mem_append] at hmem ⊢
      exact hmem.imp (fun hqueued => htasks ▸ hqueued) (List.mem_erase_of_ne hsame).mpr
  · exact .inr ⟨signal, List.mem_append_left _ hmem, habout⟩

theorem orderly_of_unused (hunused : World.Unused s) (htasks : s.runtime.tasks = []) :
    Orderly 0 { world := { session := s } } where
  settled := ⟨0, World.settled_of_fresh hunused.toFresh⟩
  received := hunused.outbox
  traffic := ⟨{}, .fresh, hunused.relay.symm, rfl, rfl⟩
  bound hup := absurd (hunused.phase.symm.trans hup) nofun
  halted _ := htasks
  fresh _ := rfl
  ended _ := .inr rfl
  charged id l hmem := by
    have hnone : (id, l) ∈ s.relay.inFlight := hmem
    rw [hunused.relay] at hnone
    cases hnone

namespace Orderly

/-- A step that adds no task and puts no call in the registry, and after which each call still has a task
or a completion. -/
theorem of_kept (h : Orderly n c) (hsettled : ∃ leaked, c'.world.Settled leaked)
    (htraffic : ∃ t : Traffic Reaction, Relay.Reachable t ∧ t.relay = c'.relay ∧
      t.underway = c'.couriers ∧ t.begun = n)
    (hphase : c'.runtime.phase = c.runtime.phase) (hentry : c'.runtime.entry = c.runtime.entry)
    (htasks : c'.runtime.tasks = c.runtime.tasks) (hreceived : c'.runtime.outbox = [])
    (hexecuting : c'.executing ⊆ c.executing)
    (hcharged : ∀ id l, (id, l) ∈ c'.relay.inFlight →
      (id, l) ∈ c.relay.inFlight ∧ (c.Charged id → c'.Charged id)) : Orderly n c' where
  settled := hsettled
  received := hreceived
  traffic := htraffic
  bound hup := hentry.trans (h.bound (hphase.symm.trans hup))
  halted hdown := htasks.trans (h.halted (hphase ▸ hdown))
  -- the phase is as before, and no task was added to those that run
  fresh hidle := List.eq_nil_of_subset_nil (h.fresh (hphase.symm.trans hidle) ▸ hexecuting)
  ended hdown := by
    refine (h.ended (hphase.symm.trans hdown)).imp hentry.trans fun hnone => ?_
    exact List.eq_nil_of_subset_nil (hnone ▸ hexecuting)
  charged id l hmem := by
    obtain ⟨hregistered, hkeeps⟩ := hcharged id l hmem
    exact (h.charged id l hregistered).imp hphase.trans hkeeps

variable (h : Orderly n c)
include h

/-- What changes neither references nor phase leaves the world settled. -/
theorem settled_of_steady {s' : Session} (hsteady : Steady c.world.session s')
    (hcalm : c.runtime.Calm s'.runtime) : ∃ leaked, (c.withSession s').world.Settled leaked := by
  obtain ⟨leaked, hsettled⟩ := h.settled
  exact ⟨leaked, hsettled.quiet
    (hsettled.balanced.quiet_of_steady hsteady hcalm.refs hcalm.pending hcalm.phase)⟩

theorem traffic_of_works (hworks : Works c c') : ∃ t : Traffic Reaction, Relay.Reachable t ∧
    t.relay = c'.relay ∧ t.underway = c'.couriers ∧ t.begun = n := by
  obtain ⟨t, hreach, hrelay, hunderway, hbegun⟩ := h.traffic
  obtain ⟨t', hbeneath⟩ := hworks.underneath hrelay hunderway
  exact ⟨t', hreach.steps hbeneath.steps, hbeneath.relay, hbeneath.underway, hbeneath.begun.trans
    hbegun⟩

theorem pick {task : Task} (hmem : task ∈ c.runtime.tasks) :
    Orderly n { c.withRuntime { c.runtime with tasks := c.runtime.tasks.erase task } with
      executing := task :: c.executing } := by
  -- only a running runtime has tasks queued
  have hup : c.runtime.phase = .running := by
    by_contra hdown
    rw [h.halted hdown] at hmem
    cases hmem
  exact {
    settled := h.settled_of_steady ⟨rfl, rfl, rfl⟩ ⟨rfl, rfl, rfl, rfl⟩
    received := h.received
    traffic := h.traffic
    bound := h.bound
    halted := fun hdown => absurd hup hdown
    fresh := fun hidle => absurd (hup.symm.trans hidle) nofun
    ended := fun hdown => absurd (hup.symm.trans hdown) nofun
    charged := by
      intro id l hregistered
      refine (h.charged id l hregistered).imp_right (Or.imp_left ?_)
      rintro ⟨-, task', hmem', habout⟩
      exact ⟨hup, task', (perm_pick hmem).mem_iff.mpr hmem', habout⟩ }

theorem finish (task : Task) :
    Orderly n { c.withRuntime { c.runtime.runTask task with outbox := [] } with
      executing := c.executing.erase task
      handed := c.handed ++ (c.runtime.runTask task).outbox } := by
  obtain ⟨hentry, htasks⟩ := kept_runTask c.runtime task
  have hcalm := calm_runTask c.runtime task
  exact h.of_kept
    (h.settled_of_steady ⟨rfl, rfl, rfl⟩ ⟨hcalm.refs, hcalm.pending, hcalm.phase, hcalm.refuseAttach⟩)
    h.traffic hcalm.phase hentry htasks rfl List.erase_subset
    fun id l hregistered => ⟨hregistered, fun hcharged => hcharged.finish h.bound task⟩

/-- **No step of a worker breaks the invariant.** -/
theorem works (hworks : Works c c') : Orderly n c' := by
  have htraffic := h.traffic_of_works hworks
  -- a step that changes nothing but the relay leaves the world settled
  have hsettled (r : Relay Reaction) : ∃ leaked, (c.withRelay r).world.Settled leaked :=
    h.settled_of_steady ⟨rfl, rfl, rfl⟩ (.refl _)
  cases hworks with
  | pick task hmem => exact h.pick hmem
  | finish task hmem => exact h.finish task
  | abandon task hmem hdown =>
    refine h.of_kept h.settled htraffic rfl rfl rfl h.received List.erase_subset
      fun id l hregistered => ⟨hregistered, ?_⟩
    rintro (⟨hup, -⟩ | hhanded)
    · exact absurd (hdown.symm.trans hup) nofun
    · exact .inr hhanded
  | receive signal hmem hother =>
    obtain ⟨hruntime, hsteady⟩ := receiveSignal_spec c.world.session signal
    have hsame : (receiveSignal c.world.session signal).relay = c.relay := relay_receiveSignal hother
    have hphase := congrArg (·.phase) hruntime
    have htasks := congrArg (·.tasks) hruntime
    refine h.of_kept (h.settled_of_steady hsteady (hruntime ▸ .refl _)) htraffic hphase
      (congrArg (·.entry) hruntime) htasks ((congrArg (·.outbox) hruntime).trans h.received)
      (List.Subset.refl _) fun id l hregistered => ⟨hsame ▸ hregistered, fun hcharged => ?_⟩
    exact hcharged.erase (by rw [hother]; nofun) hphase htasks rfl rfl
  | ignore signal id hmem habout hunknown =>
    refine h.of_kept h.settled htraffic rfl rfl rfl h.received (List.Subset.refl _)
      fun id' l hregistered => ⟨hregistered, fun hcharged => hcharged.erase ?_ rfl rfl rfl rfl⟩
    -- the registry has nothing under the number of a completion that is ignored
    rintro habout'
    cases habout.symm.trans habout'
    simpa using List.lookup_eq_none_iff.mp hunknown _ hregistered
  | enter signal id l hmem habout hknown =>
    refine h.of_kept (hsettled _) htraffic rfl rfl rfl h.received (List.Subset.refl _)
      fun id' l' hregistered => ?_
    obtain ⟨hregistered, hother⟩ := mem_inFlight_take.mp hregistered
    refine ⟨hregistered, fun hcharged => hcharged.erase ?_ rfl rfl rfl rfl⟩
    rintro habout'
    cases habout.symm.trans habout'
    exact hother rfl
  | fill | push | unpark =>
    exact h.of_kept (hsettled _) htraffic rfl rfl rfl h.received (List.Subset.refl _)
      fun id l hregistered => ⟨hregistered, fun hcharged => hcharged⟩

/-- **No act of a user breaks the invariant.** -/
theorem acts {w : World} (hgoes : c.world.Goes act outcome w) (huser : act ≠ .work)
    (halive : ∀ l, act.loop? = some l → c.relay.Alive l) (hinRange : InRange w.session) :
    Orderly (n + act.calls) { c with world := w } := by
  obtain ⟨leaked, hsettled⟩ := h.settled
  obtain ⟨t, hreach, hrelay, hunderway, hbegun⟩ := h.traffic
  obtain ⟨t', hproceeds, hrelay'⟩ := hgoes.proceeds huser halive hrelay
  have hupkeep : Upkeep c.runtime w.session.runtime :=
    hsettled.balanced.partly_upkeep h.received huser _ _ hgoes.ran hinRange
  have hhalted := hgoes.halted huser h.halted
  exact {
    settled := hsettled.goes hgoes hinRange
    received := hgoes.keeps lasting_received ((act.runtime_begun _).symm ▸ h.received)
    traffic := ⟨t', hreach.steps hproceeds.steps, hrelay', hproceeds.underway.trans hunderway,
      hproceeds.begun.trans (hbegun ▸ rfl)⟩
    bound := by
      intro hup
      cases hupkeep with
      | same hphase hentry => exact hentry.trans (h.bound (hphase.symm.trans hup))
      | began _ hbound => exact hbound hup
      | ended hunbound => exact absurd (hunbound.1.symm.trans hup) nofun
    halted := hhalted
    fresh := by
      intro hidle
      cases hupkeep with
      | same hphase _ => exact h.fresh (hphase.symm.trans hidle)
      | began hbefore _ => exact h.fresh hbefore
      | ended hunbound => exact absurd (hunbound.1.symm.trans hidle) nofun
    ended := by
      intro hdown
      cases hupkeep with
      | same hphase hentry => exact (h.ended (hphase.symm.trans hdown)).imp_left hentry.trans
      | began hbefore _ => exact .inr (h.fresh hbefore)
      | ended hunbound => exact .inl hunbound.2
    charged := by
      intro id l hregistered
      -- the call was registered before, or this act has issued it and queued its task
      obtain hold | ⟨hissues, rfl, rfl⟩ := hproceeds.registered id l (hrelay' ▸ hregistered)
      · obtain hdown | ⟨hup, task, hmem, habout⟩ | hhanded := h.charged id l (hrelay ▸ hold)
        · exact .inl (hgoes.down huser hdown)
        · obtain hqueued | hexecuting := List.mem_append.mp hmem
          · refine (hgoes.queued huser hup hqueued).imp_right fun ⟨hup, hqueued⟩ => ?_
            exact .inl ⟨hup, task, List.mem_append_left _ hqueued, habout⟩
          · refine (hgoes.up huser hup).imp_right fun hup => ?_
            exact .inl ⟨hup, task, List.mem_append_right _ hexecuting, habout⟩
        · exact .inr (.inr hhanded)
      · obtain ⟨task, hqueued, hcallback, hdata⟩ := hgoes.queues hsettled.balanced hinRange hissues
        refine .inr (.inl ⟨?_, task, List.mem_append_left _ hqueued, ?_⟩)
        · by_contra hdown
          rw [hhalted hdown] at hqueued
          cases hqueued
        · rw [Task.call?, hcallback, hdata]
          exact number?_ofNat64 _ }

end Orderly

/-- Workers leave references alone. -/
theorem refs_of_works (hworks : Works c c') : c'.runtime.refs = c.runtime.refs := by
  cases hworks with
  | finish task hmem => exact (calm_runTask c.runtime task).refs
  | receive signal hmem hother => exact congrArg (·.refs) (receiveSignal_spec c.world.session signal).1
  | _ => rfl

theorem ReachesIn.orderly (hreaches : ReachesIn n c c') (h : Orderly 0 c)
    (hinRange : InRange c'.world.session) : Orderly n c' := by
  induction hreaches with
  | refl => exact h
  | acts hbefore hgoes huser halive ih =>
    exact (ih h (hgoes.inRange hinRange)).acts hgoes huser halive hinRange
  | works hbefore hworks ih =>
    refine (ih h ?_).works hworks
    unfold InRange at hinRange ⊢
    exact refs_of_works hworks ▸ hinRange

/-- **Every crew that is reached is orderly.** -/
theorem orderly_of_reachable (h : c.ReachableIn n) (hinRange : InRange c.world.session) :
    Orderly n c := by
  obtain ⟨s, hunused, htasks, hreaches⟩ := h
  exact hreaches.orderly (orderly_of_unused hunused htasks) hinRange

end Crew

end GridBridge.Session
