import GridBridge.Proofs.Session.Errands

/-!
# Bouts: calls that workers carry out in any order

A **`Bout`** begins with a crew whose workers have nothing to do. Errands are issued one after the other,
workers take their steps whenever they like, and loops come, deliver and go in between. Two invariants are
kept by every step of it:

* `Workload`: the errands are split into those that are done and those whose task is in the queue or with
  a worker, and the stores hold what the first ones leave, in the order in which they were issued or in any
  other one;
* `Trail`: the calls are among those that the relay has begun, and whatever was taken out of the registry
  for one of them is what its errand comes back with by itself.

Read off at the end of a bout, when all tasks have run, they say that the order of execution made no
difference (**`order_does_not_matter`**).
-/

namespace GridBridge.Session

open Protocol Seam Bridge Managed Relay

namespace Crew

/-- What a loop hands over when it delivers. -/
def delivered (r : Relay Reaction) (l : LoopId) : List (Relay.Run Reaction) :=
  match r.claimNext? l with
  | some (id, claimed, _) => (claimed.map fun (callback, payload) =>
      (⟨id, l, callback, payload⟩ : Relay.Run Reaction)).toList
  | none => []

/-- Acts that may come at any time: duplicates are switched on or off, and loops come and go. -/
inductive Mild : Act → Prop where
  | duplicates (on : Bool) : Mild (.switch (.duplicates on))
  | openLoop : Mild .openLoop
  | dropLoop (loop : LoopId) : Mild (.dropLoop loop)

/-- A bout on a crew: the errands that were issued, oldest first, and what loops have handed over. -/
inductive Bout (c₀ : Crew) : List Filed → List (Relay.Run Reaction) → Crew → Prop where
  | start : Bout c₀ [] [] c₀
  | issue {issued : List Filed} {log : List (Relay.Run Reaction)} {c : Crew} {w : World}
      (hbefore : Bout c₀ issued log c) (e : Errand) (halive : c.relay.Alive e.loop)
      (hgoes : c.world.Goes e.act (.ok none) w) :
      Bout c₀ (issued ++ [⟨e, c.relay.nextCall⟩]) log { c with world := w }
  | works {issued : List Filed} {log : List (Relay.Run Reaction)} {c c' : Crew}
      (hbefore : Bout c₀ issued log c) (hworks : Works c c') : Bout c₀ issued log c'
  | deliver {issued : List Filed} {log : List (Relay.Run Reaction)} {c : Crew} {w : World}
      (hbefore : Bout c₀ issued log c) (l : LoopId) (hgoes : c.world.Goes (.deliver l) (.ok none) w) :
      Bout c₀ issued (log ++ delivered c.relay l) { c with world := w }
  | mild {issued : List Filed} {log : List (Relay.Run Reaction)} {c : Crew} {w : World} {act : Act}
      (hbefore : Bout c₀ issued log c) (hmild : Mild act) (hgoes : c.world.Goes act (.ok none) w) :
      Bout c₀ issued log { c with world := w }

variable {n : Nat} {c₀ c c' : Crew} {w : World} {act : Act} {outcome : Outcome} {issued : List Filed}
  {log : List (Relay.Run Reaction)} {finished waiting : List Filed} {f : Filed} {l : LoopId}

/-! ## What workers are at -/

/-- The tasks of the errands that were issued are finished, or in the queue or with a worker. -/
structure Workload (n : Nat) (c₀ : Crew) (issued : List Filed) (c : Crew)
    (finished waiting : List Filed) : Prop where
  reachable : c.ReachableIn (n + issued.length)
  context : c.world.session.context = c₀.world.session.context
  calm : c₀.runtime.Calm c.runtime
  feasible : ∀ f ∈ issued, f.Feasible c₀.world.session
  split : issued.Perm (finished ++ waiting)
  tasks : (c.runtime.tasks ++ c.executing).Perm (waiting.map (·.taskIn c₀.runtime))
  grid : c.runtime.grid = c₀.runtime.grid.afterAll (finished.map (·.deedIn c₀.runtime))
  handed : ∀ signal ∈ c.handed, ∃ f ∈ issued, signal = f.signalIn c₀.runtime

/-- An act of a user counts the calls that it begins. -/
theorem ReachableIn.acts (h : c.ReachableIn n)
    (hgoes : c.world.Goes act outcome w) (huser : act ≠ .work)
    (halive : ∀ l, act.loop? = some l → c.relay.Alive l) :
    ReachableIn (n + act.calls) { c with world := w } := by
  obtain ⟨s, hunused, htasks, hreaches⟩ := h
  exact ⟨s, hunused, htasks, hreaches.acts hgoes huser halive⟩

/-- A step of a worker begins no call. -/
theorem ReachableIn.works (h : c.ReachableIn n) (hworks : Works c c') : c'.ReachableIn n := by
  obtain ⟨s, hunused, htasks, hreaches⟩ := h
  exact ⟨s, hunused, htasks, hreaches.works hworks⟩

/-- Workers have nothing to do and nothing to hand over. -/
structure Rested (c : Crew) : Prop where
  tasks : c.runtime.tasks = []
  executing : c.executing = []
  handed : c.handed = []

/-- At the start nothing is issued, finished or waiting. -/
theorem workload_start (h : c₀.ReachableIn n) (hrested : c₀.Rested) : Workload n c₀ [] c₀ [] [] where
  reachable := h
  context := rfl
  calm := .refl _
  feasible := List.forall_mem_nil _
  split := .nil
  tasks := by
    rw [hrested.tasks, hrested.executing]
    exact .nil
  grid := rfl
  handed := by
    rw [hrested.handed]
    exact List.forall_mem_nil _

/-- A loop that delivers always comes to an end, and takes its claim. -/
theorem yields_deliver (l : LoopId) (s : Session) :
    Yields (Act.deliver l).run (fun _ s' => s' = { s with
      relay := ((s.relay.claimNext? l).map (·.2.2)).getD s.relay }) s := by
  refine yields_bind (yields_bind (yields_bind (yields_get (yields_pure ?_))))
  cases s.relay.claimNext? l with
  | none => exact yields_pure (yields_pure rfl)
  | some claim =>
    obtain ⟨id, claimed, after⟩ := claim
    refine yields_bind (yields_modify ?_)
    cases claimed with
    | none => exact yields_pure (yields_pure rfl)
    | some claimed => exact yields_bind (yields_pure (yields_pure (yields_pure rfl)))

/-- A loop that delivers takes its claim, and nothing else happens to the session. -/
theorem session_of_deliver (hgoes : c.world.Goes (.deliver l) outcome w) :
    w.session = { c.world.session with
      relay := ((c.relay.claimNext? l).map (·.2.2)).getD c.relay } := by
  obtain ⟨_, s', hran, hended⟩ := yields_deliver l c.world.session
  cases hgoes.ran.symm.trans hran
  exact hended

/-- Such an act is no work, begins no call and needs no loop. -/
theorem Mild.quiet (hmild : Mild act) : act ≠ .work ∧ act.calls = 0 ∧ act.loop? = none := by
  cases hmild <;> exact ⟨nofun, rfl, rfl⟩

/-- Of the session it changes one switch, or which loops there are. -/
theorem session_of_mild (hmild : Mild act) (hgoes : c.world.Goes act (.ok none) w) :
    (∃ on, w.session = { c.world.session with
        runtime := (Switch.duplicates on).apply c.runtime }) ∨
      w.session = { c.world.session with relay := c.relay.openLoop.2 } ∨
      ∃ l, w.session = { c.world.session with relay := c.relay.dropLoop l } := by
  have hsame := congrArg (·.2) hgoes.ran
  cases hmild with
  | duplicates on => exact .inl ⟨on, hsame.symm⟩
  | openLoop => exact .inr (.inl hsame.symm)
  | dropLoop l => exact .inr (.inr ⟨l, hsame.symm⟩)

/-- **An errand that is issued** was one that could be made, and it was queued. -/
theorem issued_of_goes (h : c.ReachableIn n) (hinRange : InRange c.world.session) {e : Errand}
    (hgoes : c.world.Goes e.act (.ok none) w) :
    e.Feasible c.world.session ∧
      w.session.runtime = { c.runtime with
        attached := (c.runtime.attachThread e.thread).attached
        tasks := c.runtime.tasks ++ [Filed.taskIn ⟨e, c.relay.nextCall⟩ c.runtime] } ∧
      Aside { c.world.session with relay := (c.relay.begin e.loop e.reaction).2 } w.session := by
  have horderly := orderly_of_reachable h hinRange
  obtain ⟨leaked, hsettled⟩ := horderly.settled
  have huntapped := hsettled.balanced.untapped
  obtain ⟨outcome, s', hran, hended⟩ := run_bind_eq_ok hgoes.ran
  obtain ⟨rfl, rfl⟩ : outcome = .ok () ∧ s' = w.session := by
    cases outcome <;> cases hended
    exact ⟨rfl, rfl⟩
  obtain ⟨⟨hcls, hsupported⟩, ctx, hctx, hattaches⟩ := made_of_issued huntapped horderly.received hran
  -- only a cache takes calls of this kind
  have hcache : e.handle.cls = .cache := by
    rw [← hcls]
    generalize e.call.op = op
    cases op <;> rfl
  obtain ⟨store, hget, hconnects⟩ := connects_of_reachable h hinRange (hgoes.allowed _ rfl) hcache hctx
  -- the store is the one that the handle leads to
  obtain rfl : e.storeIn c.runtime = store := by
    unfold Errand.storeIn
    rw [hget]
  obtain ⟨hruntime, haside⟩ := issued_exactly huntapped horderly.received hconnects hsupported
    (carries_requestOf e.call) hctx hattaches hran
  rw [attachThread_eq] at hruntime
  exact ⟨⟨⟨ctx, hctx, hconnects⟩, hsupported, hattaches⟩, hruntime, haside⟩

/-- A thread attaches only to a runtime that is up. -/
theorem running_of_attach {rt rt' : Runtime} {thread : ThreadId}
    (hattaches : rt.attach thread = (.ok (), rt')) : rt.phase = .running := by
  unfold Runtime.attach at hattaches
  split at hattaches
  · cases hattaches
  · exact Decidable.not_not.mp ‹_›

/-- **A task that is run** does the deed of its errand, and hands its payload over, once or twice. -/
theorem runTask_taskIn {rt₀ rt : Runtime} (hbound : rt.entry = some .completion)
    (hreceived : rt.outbox = [])
    (hunseen : rt.grid.result (f.deedIn rt₀) = rt₀.grid.result (f.deedIn rt₀)) :
    (rt.runTask (f.taskIn rt₀)).grid = rt.grid.after (f.deedIn rt₀) ∧
      ∀ signal ∈ (rt.runTask (f.taskIn rt₀)).outbox, signal = f.signalIn rt₀ := by
  have hbegins : f.call.wire = f.call.wire.take f.call.op.requestLength := by
    rw [← f.call.length_wire, List.take_length]
  have hdone : rt.grid.execute f.call.op (f.storeIn rt₀) f.call.wire =
      .ok (rt.grid.after (f.deedIn rt₀), rt.grid.result (f.deedIn rt₀)) :=
    execute_of_take rt.grid (f.storeIn rt₀) hbegins
  have hran : rt.runTask (f.taskIn rt₀) = _ := runTask_of_ok hdone
  -- what comes of it is what would have come of it at the start
  rw [hunseen] at hran
  unfold Runtime.complete Runtime.signal? at hran
  simp only [hbound, Option.map_some, Runtime.send, hreceived, List.nil_append] at hran
  rw [hran]
  refine ⟨rfl, fun signal hmem => ?_⟩
  have hmem : signal ∈ if rt.faults.duplicateCompletions then [f.signalIn rt₀, f.signalIn rt₀]
      else [f.signalIn rt₀] := hmem
  -- once, or twice with duplicates switched on
  split at hmem <;> simpa using hmem

namespace Workload

variable (h : Workload n c₀ issued c finished waiting)
include h

/-- References have not moved, so they are still in range. -/
theorem inRange (hinRange : InRange c₀.world.session) : InRange c.world.session := by
  unfold InRange at hinRange ⊢
  exact h.calm.refs ▸ hinRange

/-- An act that leaves the grid and the queue alone. -/
theorem quiet (hgoes : c.world.Goes act outcome w) (huser : act ≠ .work) (huncounted : act.calls = 0)
    (hnowhere : act.loop? = none) {rt : Runtime} {r : Relay Reaction}
    (hsession : w.session = { c.world.session with runtime := rt, relay := r })
    (hcalm : c.runtime.Calm rt) (hgrid : rt.grid = c.runtime.grid)
    (htasks : rt.tasks = c.runtime.tasks) :
    Workload n c₀ issued { c with world := w } finished waiting where
  reachable := by
    have hreached := h.reachable.acts hgoes huser fun l hon => nomatch hnowhere.symm.trans hon
    rwa [huncounted] at hreached
  context := (congrArg (·.context) hsession).trans h.context
  calm := by
    have hcalm : c.runtime.Calm w.session.runtime := by
      rw [hsession]
      exact hcalm
    exact h.calm.trans hcalm
  feasible := h.feasible
  split := h.split
  -- nothing was queued, so what is filed and what is queued still match
  tasks := by
    have hqueue := (congrArg (·.runtime.tasks) hsession).trans htasks
    have hsame := h.tasks
    rw [← hqueue] at hsame
    exact hsame
  grid := ((congrArg (·.runtime.grid) hsession).trans hgrid).trans h.grid
  handed := h.handed

/-- Loops that come and go change nothing of the work. -/
theorem mild (hmild : Mild act) (hgoes : c.world.Goes act (.ok none) w) :
    Workload n c₀ issued { c with world := w } finished waiting := by
  obtain ⟨huser, huncounted, hnowhere⟩ := hmild.quiet
  obtain ⟨on, hsession⟩ | hsession | ⟨l, hsession⟩ := session_of_mild hmild hgoes
  · exact h.quiet hgoes huser huncounted hnowhere hsession ⟨rfl, rfl, rfl, rfl⟩ rfl rfl
  · exact h.quiet hgoes huser huncounted hnowhere hsession (.refl _) rfl rfl
  · exact h.quiet hgoes huser huncounted hnowhere hsession (.refl _) rfl rfl

/-- Nor does a loop that delivers. -/
theorem deliver (hgoes : c.world.Goes (.deliver l) outcome w) :
    Workload n c₀ issued { c with world := w } finished waiting :=
  h.quiet hgoes nofun rfl rfl (session_of_deliver hgoes) (.refl _) rfl rfl

/-- An errand that is issued has its task in the queue. -/
theorem issue (hinRange : InRange c₀.world.session) {e : Errand} (halive : c.relay.Alive e.loop)
    (hgoes : c.world.Goes e.act (.ok none) w) :
    Workload n c₀ (issued ++ [⟨e, c.relay.nextCall⟩]) { c with world := w } finished
      (waiting ++ [⟨e, c.relay.nextCall⟩]) := by
  obtain ⟨hfeasible, hruntime, haside⟩ := issued_of_goes h.reachable (h.inRange hinRange) hgoes
  have hback : c.runtime.Calm c₀.runtime :=
    ⟨h.calm.refs.symm, h.calm.pending.symm, h.calm.phase.symm, h.calm.refuseAttach.symm⟩
  -- what the handle stands for has not changed since the bout began
  have hstore : e.storeIn c.runtime = e.storeIn c₀.runtime :=
    congrArg Deed.store (Errand.deedIn_calm h.calm)
  have hcalm : c.runtime.Calm w.session.runtime := by
    rw [hruntime]
    exact ⟨rfl, rfl, rfl, rfl⟩
  have hqueue : w.session.runtime.tasks =
      c.runtime.tasks ++ [Filed.taskIn ⟨e, c.relay.nextCall⟩ c₀.runtime] := by
    rw [hruntime]
    unfold Filed.taskIn
    rw [hstore]
  exact {
    reachable := by
      rw [List.length_append, List.length_singleton]
      refine h.reachable.acts hgoes nofun fun l hon => ?_
      obtain rfl := Option.some.inj hon
      exact halive
    context := (congrArg (·.context) haside.same).trans h.context
    calm := h.calm.trans hcalm
    feasible := List.forall_mem_append.mpr ⟨h.feasible, List.forall_mem_singleton.mpr
      (hfeasible.calm h.context.symm hback)⟩
    split := by
      rw [← List.append_assoc]
      exact h.split.append_right _
    tasks := by
      show (w.session.runtime.tasks ++ c.executing).Perm _
      rw [hqueue, List.append_assoc, List.map_append]
      -- the new task stands behind the queued ones, and those under way behind it
      refine (List.perm_append_comm.append_left _).trans ?_
      rw [← List.append_assoc]
      exact h.tasks.append_right _
    grid := (congrArg (·.grid) hruntime).trans h.grid
    handed := by
      intro signal hmem
      obtain ⟨f, hissued, hsame⟩ := h.handed signal hmem
      exact ⟨f, List.mem_append_left _ hissued, hsame⟩ }

/-- A task is finished: its deed is done, and none of those before it shows in what it hands over. -/
theorem finish (hinRange : InRange c₀.world.session)
    (hapart : (issued.map (·.deedIn c₀.runtime)).Pairwise Deed.Apart)
    (hmem : f.taskIn c₀.runtime ∈ c.executing) {rest : List Filed}
    (hothers : waiting.Perm (f :: rest)) :
    Workload n c₀ issued
      { c.withRuntime { c.runtime.runTask (f.taskIn c₀.runtime) with outbox := [] } with
        executing := c.executing.erase (f.taskIn c₀.runtime)
        handed := c.handed ++ (c.runtime.runTask (f.taskIn c₀.runtime)).outbox }
      (finished ++ [f]) rest := by
  have horderly := orderly_of_reachable h.reachable (h.inRange hinRange)
  have hsplit : issued.Perm (finished ++ f :: rest) := h.split.trans (hothers.append_left _)
  have hfiled : f ∈ issued := hsplit.symm.subset (by simp)
  have hup : c.runtime.phase = .running :=
    h.calm.phase.trans (running_of_attach (h.feasible f hfiled).attaches)
  -- what was finished before is about other keys, so it does not show in the result
  have hunseen : c.runtime.grid.result (f.deedIn c₀.runtime) =
      c₀.runtime.grid.result (f.deedIn c₀.runtime) := by
    have hapart := (hsplit.map (·.deedIn c₀.runtime)).pairwise hapart symm
    rw [List.map_append, List.pairwise_append] at hapart
    rw [h.grid]
    refine Deed.result_afterAll (fun b hdone => ?_) _
    exact symm (hapart.2.2 b hdone _ (List.mem_map_of_mem (List.mem_cons_self ..)))
  obtain ⟨hgrid, hsent⟩ := runTask_taskIn (horderly.bound hup) horderly.received hunseen
  have hcalm := calm_runTask c.runtime (f.taskIn c₀.runtime)
  exact {
    reachable := h.reachable.works (.finish c _ hmem)
    context := h.context
    calm := h.calm.trans ⟨hcalm.refs, hcalm.pending, hcalm.phase, hcalm.refuseAttach⟩
    feasible := h.feasible
    split := by
      rw [List.append_assoc]
      exact hsplit
    tasks := by
      have hqueue := (kept_runTask c.runtime (f.taskIn c₀.runtime)).2
      show ((c.runtime.runTask (f.taskIn c₀.runtime)).tasks ++ c.executing.erase _).Perm _
      rw [hqueue]
      -- counted with the task that is finished, both sides are what they were
      refine List.Perm.cons_inv (a := f.taskIn c₀.runtime) ?_
      refine (List.perm_middle.symm.trans ((List.perm_cons_erase hmem).symm.append_left _)).trans ?_
      exact h.tasks.trans (hothers.map _)
    grid := by
      refine hgrid.trans ?_
      rw [h.grid, List.map_append, Grid.afterAll_append]
      rfl
    handed := by
      intro signal hmem
      obtain hold | hnew := List.mem_append.mp hmem
      · exact h.handed signal hold
      · exact ⟨f, hfiled, hsent signal hnew⟩ }

/-- **No step of a worker** takes a task away or adds one: it takes a task on, or finishes one whose deed
none of the others has seen. -/
theorem works (hinRange : InRange c₀.world.session)
    (hapart : (issued.map (·.deedIn c₀.runtime)).Pairwise Deed.Apart) (hworks : Works c c') :
    ∃ finished' waiting', Workload n c₀ issued c' finished' waiting' := by
  have hreachable := h.reachable.works hworks
  -- a task that a worker is at is that of an errand that waits
  have hfiled {task : Task} (hmem : task ∈ c.executing) :
      ∃ f rest, waiting.Perm (f :: rest) ∧ f.taskIn c₀.runtime = task := by
    have hamong := h.tasks.mem_iff.mp (List.mem_append_right _ hmem)
    obtain ⟨f, hmem, hsame⟩ := List.mem_map.mp hamong
    obtain ⟨front, back, rfl⟩ := List.append_of_mem hmem
    exact ⟨f, front ++ back, List.perm_middle, hsame⟩
  cases hworks with
  | pick task hmem =>
    exact ⟨finished, waiting, hreachable, h.context, h.calm.trans ⟨rfl, rfl, rfl, rfl⟩, h.feasible,
      h.split, (perm_pick hmem).trans h.tasks, h.grid, h.handed⟩
  | finish task hmem =>
    obtain ⟨f, rest, hothers, rfl⟩ := hfiled hmem
    exact ⟨_, _, h.finish hinRange hapart hmem hothers⟩
  | abandon task hmem hdown =>
    obtain ⟨f, rest, hothers, -⟩ := hfiled hmem
    have hwaits : f ∈ waiting := hothers.symm.subset (List.mem_cons_self ..)
    have hissued := h.split.symm.subset (List.mem_append_right _ hwaits)
    -- the runtime is up, so no worker abandons its task
    cases hdown.symm.trans (h.calm.phase.trans (running_of_attach (h.feasible f hissued).attaches))
  | receive signal hmem hother =>
    obtain ⟨f, -, rfl⟩ := h.handed signal hmem
    cases (number?_ofNat64 f.id).symm.trans hother
  | ignore signal | enter signal =>
    exact ⟨finished, waiting, hreachable, h.context, h.calm, h.feasible, h.split, h.tasks, h.grid,
      fun signal hmem => h.handed signal (List.mem_of_mem_erase hmem)⟩
  | fill | push | unpark =>
    exact ⟨finished, waiting, hreachable, h.context, h.calm, h.feasible, h.split, h.tasks, h.grid,
      h.handed⟩

end Workload

/-! ## What the relay has seen -/

/-- The calls of the errands are among those that the relay has begun, and whatever was taken out of the
registry under the number of an errand is its payload. -/
structure Trail (n : Nat) (c₀ : Crew) (issued : List Filed) (log : List (Relay.Run Reaction)) (c : Crew)
    (t : Traffic Reaction) : Prop where
  reachable : Relay.Reachable t
  relay : t.relay = c.relay
  underway : t.underway = c.couriers
  begun : t.begun = n + issued.length
  runs : ∃ earlier, t.runs = earlier ++ log ∧ ∀ run ∈ earlier, run.id.toNat ≤ n
  calls : ∀ f ∈ issued, (⟨f.id, f.loop, f.reaction⟩ : Issued Reaction) ∈ t.issued
  numbers : ∀ f ∈ issued, n < f.id.toNat
  distinct : (issued.map (·.id)).Nodup
  payloads : ∀ f ∈ issued, ∀ payload, (f.id, payload) ∈ t.taken → payload = f.payloadIn c₀.runtime

/-- At the start the calls of before have their numbers, all below those to come. -/
theorem trail_start (h : c₀.ReachableIn n) (hinRange : InRange c₀.world.session) (hroom : n < 2 ^ 64) :
    ∃ t, Trail n c₀ [] [] c₀ t := by
  obtain ⟨t, hreachable, hrelay, hunderway, hbegun⟩ := (orderly_of_reachable h hinRange).traffic
  have hsound := sound_of_reachable hreachable (hbegun ▸ hroom)
  refine ⟨t, hreachable, hrelay, hunderway, hbegun, ⟨t.runs, (List.append_nil _).symm, ?_⟩,
    List.forall_mem_nil _, List.forall_mem_nil _, .nil, List.forall_mem_nil _⟩
  intro run hmem
  exact hbegun ▸ hsound.takenKnown (List.mem_map_of_mem (hsound.runTaken hmem))

namespace Trail

variable {t : Traffic Reaction} (h : Trail n c₀ issued log c t)
include h

/-- Steps of traffic that issue, take and run nothing. -/
theorem steps {t' : Traffic Reaction} (hsteps : Steps t t') (hrelay : t'.relay = c'.relay)
    (hunderway : t'.underway = c'.couriers) (hbegun : t'.begun = t.begun) (hruns : t'.runs = t.runs)
    (hsame : t'.issued = t.issued) (htaken : t'.taken = t.taken) : Trail n c₀ issued log c' t' where
  reachable := h.reachable.steps hsteps
  relay := hrelay
  underway := hunderway
  begun := hbegun.trans h.begun
  runs := hruns ▸ h.runs
  calls := hsame ▸ h.calls
  numbers := h.numbers
  distinct := h.distinct
  payloads := htaken ▸ h.payloads

/-- Loops that come and go are steps of the traffic, and a switch is none. -/
theorem mild (hmild : Mild act) (hgoes : c.world.Goes act (.ok none) w) :
    ∃ t', Trail n c₀ issued log { c with world := w } t' := by
  obtain ⟨on, hsession⟩ | hsession | ⟨l, hsession⟩ := session_of_mild hmild hgoes
  · have hrelay : w.session.relay = c.relay := congrArg (·.relay) hsession
    exact ⟨t, h.steps (.refl t) (h.relay.trans hrelay.symm) h.underway rfl rfl rfl rfl⟩
  · have hrelay : w.session.relay = c.relay.openLoop.2 := congrArg (·.relay) hsession
    exact ⟨_, h.steps (.head (.openLoop t) (.refl _))
      ((congrArg (·.openLoop.2) h.relay).trans hrelay.symm) h.underway rfl rfl rfl rfl⟩
  · have hrelay : w.session.relay = c.relay.dropLoop l := congrArg (·.relay) hsession
    exact ⟨_, h.steps (.head (.dropLoop t l) (.refl _))
      ((congrArg (·.dropLoop l) h.relay).trans hrelay.symm) h.underway rfl rfl rfl rfl⟩

/-- What a loop hands over goes to the end of the log. -/
theorem deliver (hgoes : c.world.Goes (.deliver l) outcome w) :
    ∃ t', Trail n c₀ issued (log ++ delivered c.relay l) { c with world := w } t' := by
  have hsession := session_of_deliver hgoes
  unfold delivered
  cases hnext : c.relay.claimNext? l with
  | none =>
    rw [hnext] at hsession
    rw [List.append_nil]
    exact ⟨t, h.steps (.refl t) (h.relay.trans (congrArg (·.relay) hsession).symm) h.underway
      rfl rfl rfl rfl⟩
  -- one more callback has run, with the payload its call was completed with
  | some claim =>
    obtain ⟨id, claimed, after⟩ := claim
    rw [hnext] at hsession
    obtain ⟨earlier, hruns, hold⟩ := h.runs
    refine ⟨_, {
      reachable := h.reachable.step (.deliver t l id claimed after (h.relay ▸ hnext))
      relay := (congrArg (·.relay) hsession).symm
      underway := h.underway
      begun := h.begun
      runs := ⟨earlier, by rw [hruns, List.append_assoc], hold⟩
      calls := h.calls
      numbers := h.numbers
      distinct := h.distinct
      payloads := h.payloads }⟩

/-- The traffic is sound while numbers last. -/
theorem sound (hroom : n + issued.length < 2 ^ 64) : Sound t :=
  sound_of_reachable h.reachable (h.begun ▸ hroom)

/-- A signal that takes its call out of the registry brings the payload of its errand. -/
theorem works (hhanded : ∀ signal ∈ c.handed, ∃ f ∈ issued, signal = f.signalIn c₀.runtime)
    (hworks : Works c c') : ∃ t', Trail n c₀ issued log c' t' := by
  obtain ⟨t', hbeneath⟩ := hworks.underneath h.relay h.underway
  refine ⟨t', {
    reachable := h.reachable.steps hbeneath.steps
    relay := hbeneath.relay
    underway := hbeneath.underway
    begun := hbeneath.begun.trans h.begun
    runs := hbeneath.runs ▸ h.runs
    calls := hbeneath.issued ▸ h.calls
    numbers := h.numbers
    distinct := h.distinct
    payloads := ?_ }⟩
  intro g hamong payload htaken
  obtain hsame | ⟨signal, hmem, id, habout, hnew⟩ := hbeneath.taken
  · exact h.payloads g hamong payload (hsame ▸ htaken)
  rw [hnew] at htaken
  obtain hold | hnew := List.mem_append.mp htaken
  · exact h.payloads g hamong payload hold
  · obtain ⟨f, hfiled, rfl⟩ := hhanded signal hmem
    obtain rfl : f.id = id := Option.some.inj ((number?_ofNat64 f.id).symm.trans habout)
    obtain ⟨hsame, rfl⟩ := Prod.mk.inj (List.mem_singleton.mp hnew)
    -- no two errands have one number, so it is the payload of this one
    rw [List.inj_on_of_nodup_map h.distinct hamong hfiled hsame]
    rfl

/-- An errand that is issued has a number that no other one has. -/
theorem issue (hroom : n + issued.length + 1 < 2 ^ 64) {e : Errand} (halive : c.relay.Alive e.loop)
    (hbegins : w.session.relay = (c.relay.begin e.loop e.reaction).2) :
    ∃ t', Trail n c₀ (issued ++ [⟨e, c.relay.nextCall⟩]) log { c with world := w } t' := by
  have hsound := h.sound (Nat.lt_of_succ_lt hroom)
  -- the number of the call is above all that were given out
  have hfresh : c.relay.nextCall.toNat = n + issued.length + 1 := by
    rw [← h.relay, hsound.toNat_nextCall (h.begun ▸ hroom), h.begun]
  have hknown : ∀ f ∈ issued, f.id.toNat ≤ n + issued.length := fun f hmem =>
    h.begun ▸ hsound.issuedKnown (h.calls f hmem)
  refine ⟨_, {
    reachable := h.reachable.step (.issue t e.loop e.reaction (h.relay ▸ halive))
    relay := by rw [h.relay]; exact hbegins.symm
    underway := h.underway
    begun := ?_
    runs := h.runs
    calls := ?_
    numbers := ?_
    distinct := ?_
    payloads := ?_ }⟩
  · rw [List.length_append, List.length_singleton]
    exact congrArg (· + 1) h.begun
  · refine List.forall_mem_append.mpr ⟨fun f hmem => List.mem_cons_of_mem _ (h.calls f hmem),
      List.forall_mem_singleton.mpr ?_⟩
    rw [h.relay]
    exact List.mem_cons_self ..
  · refine List.forall_mem_append.mpr ⟨h.numbers, List.forall_mem_singleton.mpr ?_⟩
    show n < c.relay.nextCall.toNat
    omega
  · rw [List.map_append, List.nodup_append]
    refine ⟨h.distinct, List.nodup_singleton _, ?_⟩
    intro id hold id' hnew hsame
    obtain ⟨f, hmem, rfl⟩ := List.mem_map.mp hold
    obtain rfl := List.mem_singleton.mp hnew
    have hbelow := hknown f hmem
    rw [hsame, hfresh] at hbelow
    omega
  · refine List.forall_mem_append.mpr ⟨h.payloads, List.forall_mem_singleton.mpr ?_⟩
    intro payload htaken
    have hbelow := hsound.takenKnown (List.mem_map_of_mem htaken)
    rw [h.begun] at hbelow
    exact absurd (hfresh ▸ hbelow) (Nat.not_succ_le_self _)

end Trail

/-! ## Bouts -/

section Bouts

variable (h : c₀.ReachableIn n) (hinRange : InRange c₀.world.session) (hrested : c₀.Rested)
  (hbout : Bout c₀ issued log c)
  (hapart : issued.Pairwise fun f g => (f.deedIn c₀.runtime).Apart (g.deedIn c₀.runtime))
  (hroom : n + issued.length < 2 ^ 64)
include h hinRange hrested hbout hapart hroom

/-- Both hold of every bout, step by step. -/
theorem Bout.keeps : (∃ finished waiting, Workload n c₀ issued c finished waiting) ∧
    ∃ t, Trail n c₀ issued log c t := by
  induction hbout with
  | start => exact ⟨⟨[], [], workload_start h hrested⟩, trail_start h hinRange hroom⟩
  -- the others were apart and few enough before this one came
  | issue hbefore e halive hgoes ih =>
    rw [List.length_append, List.length_singleton] at hroom
    obtain ⟨⟨finished, waiting, hworkload⟩, t, htrail⟩ :=
      ih (List.pairwise_append.mp hapart).1 (Nat.lt_of_succ_lt hroom)
    obtain ⟨-, -, haside⟩ := issued_of_goes hworkload.reachable (hworkload.inRange hinRange) hgoes
    exact ⟨⟨finished, _, hworkload.issue hinRange halive hgoes⟩,
      htrail.issue hroom halive (congrArg (·.relay) haside.same)⟩
  | works hbefore hworks ih =>
    obtain ⟨⟨finished, waiting, hworkload⟩, t, htrail⟩ := ih hapart hroom
    exact ⟨hworkload.works hinRange (List.pairwise_map.mpr hapart) hworks,
      htrail.works hworkload.handed hworks⟩
  | deliver hbefore l hgoes ih =>
    obtain ⟨⟨finished, waiting, hworkload⟩, t, htrail⟩ := ih hapart hroom
    exact ⟨⟨finished, waiting, hworkload.deliver hgoes⟩, htrail.deliver hgoes⟩
  | mild hbefore hmild hgoes ih =>
    obtain ⟨⟨finished, waiting, hworkload⟩, t, htrail⟩ := ih hapart hroom
    exact ⟨⟨finished, waiting, hworkload.mild hmild hgoes⟩, htrail.mild hmild hgoes⟩

end Bouts

/-- What becomes of a call that was issued, if its callback is to be given this payload. -/
structure Settles (c : Crew) (log : List (Relay.Run Reaction)) (f : Filed) (payload : Completion) :
    Prop where
  /-- Whatever was handed over for it is its callback with this payload, on its loop. -/
  right : ∀ run ∈ log, run.id = f.id → run = f.handed payload
  /-- If nothing was and its loop is alive, it waits, and once no signal is on its way, its payload is
  there and the loop is to hand it over. -/
  due : c.relay.Alive f.loop → (∀ run ∈ log, run.id ≠ f.id) →
    ∃ e, c.relay.WaitsOn f.loop e ∧ e.id = f.id ∧ e.callback = f.reaction ∧
      (c.handed = [] → c.couriers = [] → e.slot = some payload ∧ c.relay.ReadyOn f.loop f.id)

/-- **What becomes of a call** once its task has run. -/
theorem settles (hworkload : Workload n c₀ issued c finished []) {t : Traffic Reaction}
    (htrail : Trail n c₀ issued log c t) (hinRange : InRange c₀.world.session)
    (hroom : n + issued.length < 2 ^ 64) (hmem : f ∈ issued) :
    Settles c log f (f.payloadIn c₀.runtime) := by
  have hsound := htrail.sound hroom
  have hcall := htrail.calls f hmem
  obtain ⟨earlier, hruns, hold⟩ := htrail.runs
  constructor
  · intro run hamong hsame
    have hran : run ∈ t.runs := hruns ▸ List.mem_append_right _ hamong
    obtain ⟨hloop, hcallback⟩ := hsound.runIssued hran hcall hsame.symm
    have hpayload := htrail.payloads f hmem run.payload (hsame ▸ hsound.runTaken hran)
    obtain ⟨id, l, reaction, given⟩ := run
    simp only at hsame hloop hcallback hpayload
    unfold Filed.handed
    rw [hsame, hloop, hcallback, hpayload]
  · intro halive hnone
    -- what was handed over before the bout has smaller numbers
    have hunrun : ∀ run ∈ t.runs, run.id ≠ f.id := by
      intro run hamong hsame
      rw [hruns] at hamong
      obtain hearly | hlate := List.mem_append.mp hamong
      · have hbelow := hold run hearly
        rw [hsame] at hbelow
        exact absurd (htrail.numbers f hmem) (Nat.not_lt_of_le hbelow)
      · exact hnone run hlate hsame
    obtain ⟨e, hwaits, hsame⟩ := hsound.issuedWaits hcall (htrail.relay.symm ▸ halive) hunrun
    have hsame : e.id = f.id := hsame
    have hcallback := (hsound.waitsIssued hwaits hcall hsame.symm).2
    refine ⟨e, htrail.relay ▸ hwaits, hsame, hcallback.symm, fun hhanded hcouriers => ?_⟩
    cases hsound.standing hwaits with
    | inFlight hregistered _ _ =>
      -- its task and its completion are gone, so it was taken out of the registry
      have horderly := orderly_of_reachable hworkload.reachable (hworkload.inRange hinRange)
      obtain hdown | ⟨-, task, hqueued, -⟩ | ⟨signal, hheld, -⟩ :=
        horderly.charged e.id f.loop (htrail.relay ▸ hregistered)
      · cases hdown.symm.trans (hworkload.calm.phase.trans
          (running_of_attach (hworkload.feasible f hmem).attaches))
      · cases hworkload.tasks.mem_iff.mp hqueued
      · rw [hhanded] at hheld
        cases hheld
    | underway courier hamong _ _ _ _ =>
      rw [htrail.underway, hcouriers] at hamong
      cases hamong
    | settled payload _ htaken hslot hready =>
      obtain rfl := htrail.payloads f hmem payload (hsame ▸ htaken)
      exact ⟨hslot, hsame ▸ htrail.relay ▸ hready⟩

/-- What comes back of a put or a removal fits into the reply of a call that waits. -/
theorem toInt64_toInt32_result {e : Errand} (hfeasible : e.Feasible c₀.world.session) :
    (c₀.runtime.grid.result (e.deedIn c₀.runtime)).toInt32.toInt64 =
      c₀.runtime.grid.result (e.deedIn c₀.runtime) := by
  have hsupported := hfeasible.supported
  unfold Grid.result Errand.deedIn
  dsimp only
  generalize e.call = call at hsupported
  cases call with
  | put key value => rfl
  | remove key =>
    unfold CacheCall.apply
    dsimp only
    split <;> rfl
  | size => cases hsupported

/-- **The order in which workers carry calls out does not matter**, if they are apart. Whatever a crew
whose workers have nothing to do holds, and whatever puts and removals are issued on it, no two of them
about one key of one cache: once all tasks have run, in whatever order, and whatever loops have delivered
in between, and whether completions came once or twice:

* the stores hold what they would hold if the calls had been performed at once, in the order in which they
  were issued;
* each callback that a loop has handed over was given what its call would have come back with then, and
  none was handed over twice;
* a call whose loop is alive and has not handed it over waits on it, and once its signal has come, with
  that payload. -/
theorem order_does_not_matter (h : c₀.ReachableIn n) (hinRange : InRange c₀.world.session)
    (hrested : c₀.Rested) (hbout : Bout c₀ issued log c)
    (hapart : issued.Pairwise fun f g => (f.deedIn c₀.runtime).Apart (g.deedIn c₀.runtime))
    (hroom : n + issued.length < 2 ^ 64) (htasks : c.runtime.tasks = [])
    (hexecuting : c.executing = []) :
    ∃ replies s', (inTurn (issued.map (·.toErrand))).run.run c₀.world.session =
        (.ok (replies.map .ok), s') ∧
      c.runtime.grid = s'.runtime.grid ∧
      List.Forall₂ (fun f (reply : Int32) => Settles c log f ⟨resultOk, reply.toInt64.toUInt64⟩) issued
        replies ∧
      (log.map (·.id)).Nodup := by
  obtain ⟨⟨finished, waiting, hworkload⟩, t, htrail⟩ := hbout.keeps h hinRange hrested hapart hroom
  -- no errand waits, so all of them are finished
  obtain rfl : waiting = [] := by
    have hnone := hworkload.tasks
    rw [htasks, hexecuting] at hnone
    exact List.map_eq_nil_iff.mp hnone.symm.eq_nil
  have hsplit : issued.Perm finished := by simpa using hworkload.split
  have horderly := orderly_of_reachable h hinRange
  obtain ⟨leaked, hsettled⟩ := horderly.settled
  have hdeeds : (issued.map (·.toErrand)).map (·.deedIn c₀.runtime) =
      issued.map (·.deedIn c₀.runtime) := List.map_map
  have hapart' : (issued.map (·.deedIn c₀.runtime)).Pairwise Deed.Apart := List.pairwise_map.mpr hapart
  obtain ⟨s', hran, hgrid⟩ := inTurn_exactly (issued.map (·.toErrand))
    (List.forall_mem_map.mpr hworkload.feasible) (hdeeds ▸ hapart') hsettled.balanced.untapped
    horderly.received
  refine ⟨issued.map fun f => (c₀.runtime.grid.result (f.deedIn c₀.runtime)).toInt32, s', ?_, ?_,
    ?_, ?_⟩
  · rw [hran, List.map_map, List.map_map]
    rfl
  · rw [hgrid, hdeeds, hworkload.grid]
    exact (Deed.after_perm hapart' (hsplit.map _) _).symm
  · rw [List.forall₂_map_right_iff, List.forall₂_same]
    intro f hmem
    rw [toInt64_toInt32_result (hworkload.feasible f hmem)]
    exact settles hworkload htrail hinRange hroom hmem
  · obtain ⟨earlier, hruns, -⟩ := htrail.runs
    have honce := (htrail.sound hroom).runOnce
    rw [hruns, List.map_append] at honce
    exact honce.of_append_right

/-! ### Two calls that are run in the other order -/

/-- Many steps of workers are part of a bout. -/
theorem Bout.worksTo (hbefore : Bout c₀ issued log c) (honward : WorksTo c c') :
    Bout c₀ issued log c' := by
  induction honward with
  | refl => exact hbefore
  | tail _ hworks ih => exact ih.works hworks

/-- A put and a removal on the cache that is open. -/
def older : Errand := ⟨0, { target := ⟨24⟩, cls := .cache }, .put 1 2, 0, .note 5⟩

def younger : Errand := ⟨0, { target := ⟨24⟩, cls := .cache }, .remove 3, 0, .note 6⟩

def both : World := putting.next younger.act (.ok none)

/-- The younger task was run before the older one. -/
def swapped : World :=
  turn (turn both (Filed.taskIn ⟨younger, 2⟩ looping.session.runtime))
    (Filed.taskIn ⟨older, 1⟩ looping.session.runtime)

def answered : World := swapped.next (.deliver 0) (.ok none)

/-- Both calls with their numbers. -/
def crossed : List Filed :=
  [⟨older, looping.session.relay.nextCall⟩, ⟨younger, putting.session.relay.nextCall⟩]

theorem bout_answered : Bout { world := looping } crossed (delivered swapped.session.relay 0)
    { world := answered } := by
  have hissued : putting.Goes younger.act (.ok none) both := by
    have hends : { target := ⟨24⟩, cls := .cache } ∈ putting.owned ∧
        (younger.act.run.run.run putting.session).1 = .ok (.ok none) := by decide +kernel
    refine World.goes_next (fun handle hneeds => ?_) hends.2
    obtain rfl := Option.some.inj hneeds
    exact hends.1
  -- the younger call is worked off first
  have hruns : Filed.taskIn ⟨younger, 2⟩ looping.session.runtime ∈ both.session.runtime.tasks ∧
      Filed.taskIn ⟨older, 1⟩ looping.session.runtime ∈
        (turn both (Filed.taskIn ⟨younger, 2⟩ looping.session.runtime)).session.runtime.tasks ∧
      (putting.session.relay.loop? 0).isSome = true ∧
      ((Act.deliver 0).run.run.run swapped.session).1 = .ok (.ok none) := by decide +kernel
  have hfirst : Bout { world := looping } ([] ++ [⟨older, looping.session.relay.nextCall⟩]) []
      { world := putting } := .issue .start older alive_looping goes_putting
  have hsecond := (hfirst.issue younger hruns.2.2.1 hissued).worksTo
    ((worksTo_turn both _ hruns.1).trans (worksTo_turn _ _ hruns.2.1))
  exact hsecond.deliver 0 (World.goes_next nofun hruns.2.2.2)

/-! None of these worlds is to be computed below. -/

attribute [irreducible] both swapped answered

/-- They are about two keys, whatever the runtime. -/
theorem apart_older_younger (rt : Runtime) : (older.deedIn rt).Apart (younger.deedIn rt) :=
  fun _ => ⟨1, 3, rfl, rfl, by decide⟩

theorem order_does_not_matter_answered : ReachableIn 0 { world := looping } ∧
    InRange looping.session ∧ Rested { world := looping } ∧
    crossed.map (·.toErrand) = [older, younger] ∧
    Bout { world := looping } crossed (delivered swapped.session.relay 0) { world := answered } ∧
    (crossed.Pairwise fun f g => (f.deedIn looping.session.runtime).Apart
      (g.deedIn looping.session.runtime)) ∧
    0 + crossed.length < 2 ^ 64 ∧ answered.session.runtime.tasks = [] ∧
    ∃ replies s', (inTurn (crossed.map (·.toErrand))).run.run looping.session =
          (.ok (replies.map .ok), s') ∧
        answered.session.runtime.grid = s'.runtime.grid ∧
        List.Forall₂ (fun f (reply : Int32) => Settles { world := answered }
          (delivered swapped.session.relay 0) f ⟨resultOk, reply.toInt64.toUInt64⟩) crossed replies ∧
        ((delivered swapped.session.relay 0).map (·.id)).Nodup := by
  have hfacts : InRange looping.session ∧ looping.session.runtime.tasks = [] ∧
      answered.session.runtime.tasks = [] := by
    unfold InRange
    decide +kernel
  obtain ⟨hinRange, hqueue, hdone⟩ := hfacts
  have hrested : Rested { world := looping } := ⟨hqueue, rfl, rfl⟩
  have hapart : crossed.Pairwise fun f g =>
      (f.deedIn looping.session.runtime).Apart (g.deedIn looping.session.runtime) :=
    List.pairwise_pair.mpr (apart_older_younger _)
  have hroom : 0 + crossed.length < 2 ^ 64 := by
    unfold crossed
    simp only [List.length_cons, List.length_nil]
    decide
  exact ⟨looping_reachable, hinRange, hrested, rfl, bout_answered, hapart, hroom, hdone,
    order_does_not_matter looping_reachable hinRange hrested bout_answered hapart hroom hdone rfl⟩

end Crew

end GridBridge.Session
