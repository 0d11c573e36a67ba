import GridBridge.Proofs.Managed.Grid
import GridBridge.Proofs.Managed.Mirrors
import GridBridge.Proofs.Seam.Makes
import GridBridge.Seam.Tap

/-!
# What no call breaks

**`Durable`** lists the changes that calls make to the loopback runtime, one by one, and
**`leaves_answer`** says that what outlasts each of them outlasts every call, however it ends. So numbers
of references only go up (`durable_reached`), and an instance that runs goes on running until its
runtime is destroyed (`durable_runs`). What is only **`Enduring`** outlasts the calls that neither begin
nor end the life of the runtime and bind no native code (`leaves_answer_everyday`), as phase and
completion entry do (`enduring_of_queue`). What only has to outlast the calls of attached threads is
**`Inner`** (`leaves_answer_onThread`).
-/

namespace GridBridge.Managed

open Protocol Seam Answering

variable {thread : ThreadId} {rt : Runtime}

/-! ## What no call breaks -/

/-- What holds of a runtime whatever an attached thread calls, but for native code that is bound. -/
structure Inner (P : Runtime → Prop) : Prop where
  made : ∀ {rt : Runtime} (object : Object) (kind : RefKind), P rt →
    P { rt with refs := (rt.refs.insert object kind).2 }
  returned : ∀ {rt : Runtime} {r : Ref} {kind : RefKind} {refs : RefTable},
    rt.refs.remove r kind = .ok refs → P rt → P { rt with refs }
  beside : ∀ {rt : Runtime} (pending : List (ThreadId × Thrown)) (described : Nat)
    (globalRefFaults : Budget), P rt →
    P { rt with pending, described, faults := { rt.faults with globalRefFaults } }
  changed : ∀ {rt rt' : Runtime} {behaviour : Behaviour}, Change rt behaviour rt' → P rt → P rt'

/-- What holds of a runtime whatever is called from day to day. -/
structure Enduring (P : Runtime → Prop) : Prop extends Inner P where
  attached : ∀ {rt : Runtime} (thread : ThreadId), P rt → P (rt.attach thread).2

/-- What holds of a runtime whatever is called. -/
structure Durable (P : Runtime → Prop) : Prop extends Enduring P where
  bound : ∀ {rt : Runtime} (entry : NativeEntry), P rt → P { rt with entry := some entry }
  launched : ∀ {rt : Runtime} (thread : ThreadId) (args : LaunchArgs), P rt →
    P (rt.launch thread args).2
  destroyed : ∀ {rt : Runtime}, P rt → P rt.destroy

section Durable

variable {P : Runtime → Prop}

namespace Answering

/-- A call that is refused over a pending exception changes nothing. -/
theorem leaves_requireClear {activity : String} (h : P rt) :
    Leaves (requireClear thread activity) P rt := by
  refine leaves_get ?_
  split
  · exact leaves_throw h
  · exact leaves_pure h

/-- To resolve a reference changes nothing, also where it is stale. -/
theorem leaves_resolve {r : Ref} (h : P rt) : Leaves (resolve r) P rt := by
  unfold resolve
  split
  · exact leaves_pure h
  · refine leaves_get ?_
    split
    · exact leaves_pure h
    · exact leaves_throw h

/-- Nor does looking up the class that a reference stands for. -/
theorem leaves_classNameAt {r : Ref} (h : P rt) : Leaves (classNameAt r) P rt := by
  refine leaves_bind (leaves_resolve h) fun found rt' h => ?_
  split
  · exact leaves_pure h
  · exact leaves_get (leaves_throw h)

/-- Nor does resolving arguments. -/
theorem leaves_resolveArgs {args : List Arg} (h : P rt) : Leaves (args.mapM resolveArg) P rt := by
  induction args generalizing rt with
  | nil => exact leaves_pure h
  | cons arg rest ih =>
    rw [List.mapM_cons]
    -- numbers are passed on, and references are resolved
    have harg : Leaves (resolveArg arg) P rt := by
      cases arg with
      | object r => exact leaves_bind (leaves_resolve h) fun _ _ h => leaves_pure h
      | _ => exact leaves_pure h
    exact leaves_bind harg fun _ _ h => leaves_bind (ih h) fun _ _ h => leaves_pure h

/-- Nor does checking a class. -/
theorem leaves_checkClass {entry : MethodEntry} {cls : Option Ref} (h : P rt) :
    Leaves (checkClass entry cls) P rt := by
  cases cls with
  | none => exact leaves_pure h
  | some c =>
    refine leaves_bind (leaves_classNameAt h) fun name rt' h => ?_
    split
    · exact leaves_throw h
    · exact leaves_pure h

section Inner

variable (hinner : Inner P)
include hinner

/-- A local reference is made. -/
theorem leaves_localRef (found : Option Object) (h : P rt) : Leaves (localRef found) P rt := by
  cases found with
  | some object =>
    refine leaves_get (leaves_bind (leaves_set ?_) fun _ _ h => leaves_pure h)
    exact hinner.made object .localRef h
  | none => exact leaves_pure h

/-- An exception becomes pending. -/
theorem leaves_raise {cls : ThrownClass} {message : String} (h : P rt) :
    Leaves (raise thread cls message) P rt :=
  leaves_modify (hinner.beside _ rt.described rt.faults.globalRefFaults h)

/-- A reference is given back, or nothing happens. -/
theorem leaves_deleteRef {r : Ref} {kind : RefKind} (h : P rt) : Leaves (deleteRef r kind) P rt := by
  refine leaves_get ?_
  cases hremove : rt.refs.remove r kind with
  | ok refs => exact leaves_set (hinner.returned hremove h)
  -- a removal that is refused changes nothing
  | error fault => cases fault <;> exact leaves_throw h

/-- A method changes one thing, and what it throws becomes pending. -/
theorem leaves_runMethod {behaviour : Behaviour} {self : Option Object} {values : List ArgValue}
    (h : P rt) : Leaves (runMethod thread behaviour self values) P rt := by
  have hmethod : Leaves (Code.dispatch behaviour self values) P rt := by
    refine Comes.leaves ((Code.comes_dispatch self values behaviour).mono ?_ ?_)
    · exact fun _ _ hchange => hinner.changed hchange h
    · exact fun _ _ hstops => hinner.changed hstops.change h
  refine leaves_get (leaves_bind (leaves_set hmethod) fun _ rt' h => ?_)
  split
  · exact leaves_pure h
  · refine leaves_bind (leaves_modify ?_) fun _ _ h => leaves_pure h
    exact hinner.beside _ rt'.described rt'.faults.globalRefFaults h
  · exact leaves_throw h

/-- So does a method that is invoked with all its checks. -/
theorem leaves_invoke {receiver cls : Option Ref} {method : MethodId} {args : List Arg}
    (h : P rt) : Leaves (invoke thread receiver cls method args) P rt := by
  refine leaves_bind (leaves_requireClear h) fun _ rt' h => ?_
  cases methodEntry? method with
  | none => exact leaves_throw h
  | some entry =>
    dsimp only
    -- a method is called with a receiver exactly if it is not static
    by_cases hstatic : entry.spec.isStatic ≠ receiver.isNone
    · rw [if_pos hstatic]
      exact leaves_throw h
    · rw [if_neg hstatic]
      refine leaves_bind (leaves_checkClass h) fun _ rt' h => ?_
      -- the same end with a receiver and without one
      have hrest : ∀ self rt', P rt' → Leaves (args.mapM resolveArg >>= fun values =>
          runMethod thread entry.behaviour self values) P rt' := fun self rt' h =>
        leaves_bind (leaves_resolveArgs h) fun values rt' h => leaves_runMethod hinner h
      cases receiver with
      | some r => exact leaves_bind (leaves_resolve h) hrest
      | none => exact leaves_bind (leaves_pure h) hrest

/-- What a method gives is handed out as a local reference. -/
theorem leaves_refOf {value : CallValue} (h : P rt) : Leaves (refOf value) P rt := by
  cases value with
  | object found => exact leaves_localRef hinner found h
  | _ => exact leaves_pure h

end Inner

/-- Native code is bound, or an exception says why not. -/
theorem leaves_register (hinner : Inner P)
    (hbound : ∀ {rt : Runtime} (entry : NativeEntry), P rt → P { rt with entry := some entry })
    {cls : Ref} {methods : List NativeMethod} (h : P rt) :
    Leaves (register thread cls methods) P rt := by
  refine leaves_bind (leaves_requireClear h) fun _ rt' h => ?_
  refine leaves_bind (leaves_classNameAt h) fun name rt' h => ?_
  split
  · exact leaves_bind (leaves_raise hinner h) fun _ _ h => leaves_pure h
  · split
    · exact leaves_bind (leaves_modify (hbound _ h)) fun _ _ h => leaves_pure h
    · exact leaves_pure h

end Answering

/-- What threads that are attached do not break is left by their calls of every day. -/
theorem leaves_answer_inner (hinner : Inner P) {request : Call} (heveryday : request.everyday = true)
    (hinside : request ≠ .attach) (h : P rt) : Leaves (answer thread request) P rt := by
  cases request with
  | launch _ | destroy | registerNatives _ _ => cases heveryday
  | attach => exact absurd rfl hinside
  | findClass name =>
    refine leaves_bind (leaves_requireClear h) fun _ rt' h => leaves_get ?_
    split
    · exact leaves_localRef hinner (some (.cls name)) h
    · exact leaves_bind (leaves_raise hinner h) fun _ _ h => leaves_pure h
  | getMethodId cls spec =>
    refine leaves_bind (leaves_requireClear h) fun _ rt' h => ?_
    refine leaves_bind (leaves_classNameAt h) fun name rt' h => ?_
    split
    · exact leaves_pure h
    · exact leaves_bind (leaves_raise hinner h) fun _ _ h => leaves_pure h
  | getObjectClass obj =>
    exact leaves_bind (leaves_resolve h) fun found rt' h => leaves_localRef hinner _ h
  | newString text =>
    exact leaves_bind (leaves_requireClear h) fun _ rt' h =>
      leaves_localRef hinner (some (.str text)) h
  | getString str =>
    refine leaves_bind (leaves_resolve h) fun found rt' h => ?_
    split <;> exact leaves_pure h
  | callStatic cls method args =>
    exact leaves_bind (leaves_invoke hinner h) fun value rt' h => leaves_refOf hinner h
  | callObject obj method args =>
    exact leaves_bind (leaves_invoke hinner h) fun value rt' h => leaves_refOf hinner h
  | callInt obj cls method args =>
    refine leaves_bind (leaves_invoke hinner h) fun value rt' h => ?_
    cases value <;> exact leaves_pure h
  | callLong obj cls method args =>
    refine leaves_bind (leaves_invoke hinner h) fun value rt' h => ?_
    cases value <;> exact leaves_pure h
  | callVoid obj cls method args =>
    exact leaves_bind (leaves_invoke hinner h) fun value rt' h => leaves_pure h
  | exceptionCheck => exact leaves_get (leaves_pure h)
  | exceptionOccurred => exact leaves_get (leaves_localRef hinner _ h)
  | exceptionDescribe =>
    refine leaves_get ?_
    split
    · exact leaves_modify (hinner.beside rt.pending _ rt.faults.globalRefFaults h)
    · exact leaves_pure h
  | exceptionClear =>
    exact leaves_modify (hinner.beside _ rt.described rt.faults.globalRefFaults h)
  | newGlobalRef obj =>
    refine leaves_get ?_
    split
    -- an injected fault is used up, and raises
    · refine leaves_bind (leaves_set ?_) fun _ _ h => ?_
      · exact hinner.beside rt.pending rt.described _ h
      · exact leaves_bind (leaves_raise hinner h) fun _ _ h => leaves_pure h
    · refine leaves_bind (leaves_resolve h) fun found rt' h => ?_
      split
      · refine leaves_get (leaves_bind (leaves_set ?_) fun _ _ h => leaves_pure h)
        exact hinner.made _ .globalRef h
      · exact leaves_pure h
  | deleteGlobalRef obj => exact leaves_deleteRef hinner h
  | deleteLocalRef obj => exact leaves_deleteRef hinner h

/-- What endures is left by every call of every day, however it ends. -/
theorem leaves_answer_everyday (henduring : Enduring P) {request : Call}
    (heveryday : request.everyday = true) (h : P rt) : Leaves (answer thread request) P rt := by
  by_cases hattaching : request = .attach
  · subst hattaching
    refine leaves_get (leaves_bind (leaves_set ?_) fun _ _ h => leaves_pure h)
    exact henduring.attached thread h
  · exact leaves_answer_inner henduring.toInner heveryday hattaching h

/-- What outlasts native code that is bound as well is left by every call on an attached thread. -/
theorem leaves_answer_onThread (hinner : Inner P)
    (hbound : ∀ {rt : Runtime} (entry : NativeEntry), P rt → P { rt with entry := some entry })
    {request : Call} (honThread : request.onThread = true) (h : P rt) :
    Leaves (answer thread request) P rt := by
  cases request with
  | launch _ | attach | destroy => cases honThread
  | registerNatives cls methods => exact leaves_register hinner hbound h
  | _ => exact leaves_answer_inner hinner rfl nofun h

/-- **What is durable is left by every call**, however it ends. -/
theorem leaves_answer (hdurable : Durable P) {request : Call} (h : P rt) :
    Leaves (answer thread request) P rt := by
  cases request with
  | launch args =>
    refine leaves_get (leaves_bind (leaves_set ?_) fun _ _ h => leaves_pure h)
    exact hdurable.launched thread args h
  | destroy => exact leaves_modify (hdurable.destroyed h)
  | registerNatives cls methods => exact leaves_register hdurable.toInner hdurable.bound h
  | _ => exact leaves_answer_everyday hdurable.toEnduring rfl h

end Durable

/-! ## Numbers only go up -/

/-- The numbers of references have come as far as `n`. -/
def Reached (n : Nat) (rt : Runtime) : Prop := n ≤ rt.refs.next

/-- With the same references the numbers have come as far. -/
theorem Reached.of_refs {n : Nat} {rt' : Runtime} (h : Reached n rt) (hrefs : rt'.refs = rt.refs) :
    Reached n rt' := by
  rw [Reached, hrefs]
  exact h

/-- **Numbers of references only go up.** -/
theorem durable_reached (n : Nat) : Durable (Reached n) where
  made _ _ h := Nat.le_succ_of_le h
  returned hremoved h := h.trans_eq (RefTable.next_remove hremoved).symm
  beside _ _ _ h := h
  bound _ h := h
  changed hchange h := h.of_refs hchange.calm.refs
  launched thread args h := by
    rename_i rt
    -- a launch that is refused changes nothing, and one that works takes the table over
    rcases rt.launch_cases thread args with ⟨_, _, hcalm⟩ | ⟨_, _, hrefs, _⟩
    · exact h.of_refs hcalm.refs
    · exact h.of_refs hrefs
  attached thread h := h.of_refs (Runtime.calm_attach _ thread).refs
  destroyed h := h.of_refs (Runtime.destroy_spec _).1

/-! ## Instances go on running -/

/-- The instance runs, if the runtime was not destroyed. -/
def Runs (name : Option String) (rt : Runtime) : Prop :=
  rt.phase = .destroyed ∨ rt.phase = .running ∧ rt.grid.isRunning name = true

/-- With the same phase and nothing stopped, the instance runs. -/
theorem Runs.of_grid {name : Option String} {rt' : Runtime} (h : Runs name rt)
    (hphase : rt'.phase = rt.phase)
    (hgrid : rt.grid.isRunning name = true → rt'.grid.isRunning name = true) : Runs name rt' := by
  obtain hdestroyed | ⟨hup, hrunning⟩ := h
  · exact .inl (hphase.trans hdestroyed)
  · exact .inr ⟨hphase.trans hup, hgrid hrunning⟩

/-- No method stops an instance. -/
theorem Change.isRunning {rt' : Runtime} {behaviour : Behaviour} (h : Change rt behaviour rt')
    {name : Option String} (hrunning : rt.grid.isRunning name = true) :
    rt'.grid.isRunning name = true := by
  cases h with
  | started path hstopped => simp [hrunning]
  | opened cacheName hfound => exact (Grid.isRunning_openCache ..).trans hrunning
  | executed hnow hdone => exact (Grid.isRunning_execute hdone _).trans hrunning
  | _ => exact hrunning

/-- A task leaves the grid alone, or carries its operation out. -/
theorem grid_runTask (rt : Runtime) (task : Task) : (rt.runTask task).grid = rt.grid ∨
    ∃ result, rt.grid.execute task.op task.store task.request = .ok ((rt.runTask task).grid,
      result) := by
  unfold Runtime.runTask
  cases rt.grid.execute task.op task.store task.request with
  | ok after =>
    refine .inr ⟨after.2, ?_⟩
    dsimp only
    split <;> rfl
  | error stop =>
    refine .inl ?_
    dsimp only
    split <;> rfl

/-- No worker stops an instance. -/
theorem isRunning_work {rt' : Runtime} (hwork : rt.work? = some rt') {name : Option String}
    (hrunning : rt.grid.isRunning name = true) : rt'.grid.isRunning name = true := by
  unfold Runtime.work? at hwork
  split at hwork
  · cases hwork
  · rename_i task rest _
    cases hwork
    obtain hsame | ⟨result, hdone⟩ := grid_runTask { rt with tasks := rest } task
    · rw [hsame]
      exact hrunning
    · exact (Grid.isRunning_execute hdone _).trans hrunning

/-- **An instance that runs goes on running**, as long as its runtime does. -/
theorem durable_runs (name : Option String) : Durable (Runs name) where
  made _ _ h := h
  returned _ h := h
  beside _ _ _ h := h
  bound _ h := h
  changed hchange h := h.of_grid hchange.calm.phase hchange.isRunning
  launched thread args h := by
    rename_i rt
    -- a runtime of which this is said was launched already
    have hbegun : rt.phase ≠ .idle := by
      rcases h with hphase | ⟨hphase, _⟩ <;> rw [hphase] <;> exact nofun
    rw [Runtime.launch_eq, if_pos hbegun]
    exact h
  attached thread h := by
    refine h.of_grid (Runtime.calm_attach _ thread).phase fun hrunning => ?_
    unfold Runtime.attach Runtime.attachThread
    split
    · exact hrunning
    · split
      · exact hrunning
      · split <;> exact hrunning
  destroyed _ := .inl (Runtime.destroy_spec _).2.2.2

/-! ## Phase, entry and queue -/

/-- What depends on the phase, the completion entry and the queue only, and outlasts a task that is
queued, endures. -/
theorem enduring_of_queue {Q : Phase → Option NativeEntry → List Task → Prop}
    (hqueued : ∀ {entry tasks} (task : Task), Q .running entry tasks →
      Q .running entry (tasks ++ [task])) :
    Enduring fun rt => Q rt.phase rt.entry rt.tasks where
  made _ _ h := h
  returned _ h := h
  beside _ _ _ h := h
  changed hchange h := by
    cases hchange with
    -- the only change that reaches the queue
    | queued task hup =>
      show Q _ _ _
      rw [hup] at h ⊢
      exact hqueued task h
    | _ => exact h
  attached thread h := by
    unfold Runtime.attach Runtime.attachThread
    split
    · exact h
    · split
      · exact h
      · split <;> exact h

/-- What depends on the phase and the queue only is durable if it outlasts the launch and the end of the
runtime as well. -/
theorem durable_of_queue {Q : Phase → List Task → Prop}
    (hqueued : ∀ {tasks} (task : Task), Q .running tasks → Q .running (tasks ++ [task]))
    (hlaunched : ∀ {tasks}, Q .idle tasks → Q .running tasks)
    (hdestroyed : ∀ {phase tasks}, Q phase tasks → Q .destroyed []) :
    Durable fun rt => Q rt.phase rt.tasks where
  toEnduring := enduring_of_queue (Q := fun phase _ tasks => Q phase tasks) hqueued
  bound _ h := h
  launched thread args h := by
    rw [Runtime.launch_eq]
    split
    · exact h
    · rename_i hidle
      -- the launcher was idle; of its outcomes only the last one changes the phase
      rw [Decidable.not_not.mp hidle] at h
      split
      · exact (Decidable.not_not.mp hidle).symm ▸ h
      · split
        · exact (Decidable.not_not.mp hidle).symm ▸ h
        · unfold Runtime.attachThread
          split <;> exact hlaunched h
  destroyed h := by
    unfold Runtime.destroy
    split
    · exact h
    · exact hdestroyed h

end GridBridge.Managed
