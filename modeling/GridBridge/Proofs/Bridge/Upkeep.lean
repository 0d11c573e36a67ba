import GridBridge.Proofs.Bridge.Exact
import GridBridge.Proofs.Bridge.Exchange
import GridBridge.Proofs.Managed.Durable
import GridBridge.Proofs.Managed.Underway

/-!
# What the bridge keeps up for completions

A completion comes in if the runtime is up, its completion entry is bound and a task for it is queued.
The bridge binds the entry when it starts the runtime (`Context.wp_start_binds`), leaves runtime and
entry alone from day to day (`wp_of_everyday`), queues a task with each asynchronous call that returns
(`Handle.wp_inOutOpAsync_queues`) and unbinds the entry when it tears the runtime down
(`Context.wp_tearDown_unbinds`).
-/

namespace GridBridge.Bridge

open Protocol Seam Seam.Script Managed

variable {α β : Type} {thread : ThreadId} {rt : Runtime} {ctx : Context}

/-! ## From day to day -/

/-- The script makes everyday calls. -/
def Everyday (s : Script α) : Prop := s.Makes (·.everyday = true) fun _ => True

theorem Keeps.everyday {s : Script α} (h : Keeps s) : Everyday s :=
  h.mono_calls fun _ => Call.everyday_of_keeps

theorem everyday_remove (cache : Cache) (current : Option Context) (key : Int32) :
    Everyday (cache.remove current key).run :=
  .run_bind (keeps_inOp current cache.handle .remove (Cache.keyRequest key)).everyday fun _ => .pure _

theorem everyday_release (handle : Handle) (current : Option Context) :
    Everyday (handle.release current) := by
  cases current with
  | none => exact .pure _
  | some ctx =>
    refine .bind (.ask rfl) fun outcome => ?_
    cases outcome with
    | ok _ => exact .bind (.ask rfl) fun _ => .pure _
    | error _ => exact .pure _

theorem everyday_deleteGlobalRefs (refs : List Ref) :
    Everyday (refs.forM fun r => ask (.deleteGlobalRef r)) := by
  induction refs with
  | nil => exact .pure _
  | cons r rest ih => exact .bind (.ask rfl) fun _ => ih

/-- What endures is left by a script of everyday calls. -/
theorem wp_of_everyday {P : Runtime → Prop} (henduring : Enduring P)
    (hreceived : ∀ {rt : Runtime}, P rt → P { rt with outbox := [] }) {script : Script α}
    (heveryday : Everyday script) (h : P rt) :
    script.wp (loopback thread) (fun _ rt' => P rt') rt := by
  induction script generalizing rt with
  | done value => exact h
  | call request next ih =>
    show (ask request >>= next).wp _ _ _
    refine wp_bind.mpr (wp_answer fun reply rt' hran _ => ?_)
    have hleft : P rt' := (leaves_answer_everyday henduring heveryday.1 h).of_run hran
    exact ih reply (heveryday.2 reply) (hreceived hleft)
  | report fault next ih => exact ih heveryday.2 h

/-! ## The completion entry -/

/-- A registration that succeeds binds the entry. -/
theorem wp_registerNatives_binds (cls : Ref) :
    (ask (.registerNatives cls [Context.completionMethod])).wp (loopback thread)
      (fun status rt' => status = Status.ok → rt'.entry = some .completion) rt := by
  refine wp_answer (ends_bind (Answering.ends_requireClear.mono fun _ _ _ => ?_))
  refine ends_bind fun name rt' _ => ?_
  dsimp only
  split
  · refine ends_bind (ends_modify (ends_pure ?_))
    have hfailed : Status.err ≠ Status.ok := by decide
    exact fun _ hok => absurd hok hfailed
  · refine ends_bind (ends_modify (ends_pure ?_))
    exact fun _ _ => rfl

/-- **A start that succeeds binds the entry.** -/
theorem Context.wp_start_binds (args : LaunchArgs) :
    Operation.wp (loopback thread) (Context.start args)
      (fun _ rt' => rt'.entry = some .completion) (fun _ _ => True) rt := by
  unfold Context.start
  refine Operation.wp_lift_bind.mpr (wp_mono (wp_any _) fun launched _ _ => ?_)
  cases launched with
  | error code => exact trivial
  | ok _ =>
    refine Operation.wp_lift_bind.mpr (wp_mono (wp_any _) fun attached _ _ => ?_)
    cases attached with
    | error code => exact Operation.wp_lift_bind.mpr (wp_mono (wp_any _) fun _ _ _ => trivial)
    | ok _ =>
      refine Operation.wp_lift_bind.mpr (wp_mono (wp_any _) fun resolved _ _ => ?_)
      cases resolved with
      | error failure => exact Operation.wp_lift_bind.mpr (wp_mono (wp_any _) fun _ _ _ => trivial)
      | ok d =>
        refine Operation.wp_lift_bind.mpr (wp_mono (wp_registerNatives_binds _)
          fun status _ hbound => ?_)
        -- only a registration that went well lets the start return
        split
        · rename_i hok
          exact hbound hok
        · refine Operation.wp_lift_bind.mpr (wp_mono (wp_any _) fun _ _ _ => ?_)
          exact Operation.wp_lift_bind.mpr (wp_mono (wp_any _) fun _ _ _ => trivial)

/-- The runtime is destroyed and its entry unbound. -/
def Unbound (rt : Runtime) : Prop := rt.phase = .destroyed ∧ rt.entry = none

/-- The end of a runtime that is up unbinds the entry. -/
theorem wp_destroy_unbinds (hup : rt.phase = .running) :
    (ask .destroy).wp (loopback thread) (fun _ rt' => Unbound rt') rt := by
  refine wp_answer (ends_modify fun _ => ?_)
  show Unbound { rt.destroy with outbox := [] }
  unfold Runtime.destroy
  rw [if_neg (by rw [hup]; decide)]
  exact ⟨rfl, rfl⟩

/-- **To tear a runtime down that is up unbinds the entry.** -/
theorem Context.wp_tearDown_unbinds (hup : rt.phase = .running) :
    ctx.tearDown.wp (loopback thread) (fun _ rt' => Unbound rt') rt := by
  -- whatever comes before the end leaves the runtime up
  have hstays {γ : Type} {x : Script γ} (heveryday : Everyday x) {rt : Runtime}
    (hup : rt.phase = .running) :
      x.wp (loopback thread) (fun _ rt' => rt'.phase = .running) rt :=
    wp_of_everyday (enduring_of_queue (Q := fun phase _ _ => phase = .running) fun _ hup => hup)
      (fun hup => hup) heveryday hup
  have hends {rt : Runtime} (hup : rt.phase = .running) : Script.wp (loopback thread) (do
      ctx.descriptors.release
      ask .destroy) (fun _ rt' => Unbound rt') rt :=
    wp_bind.mpr (wp_mono (hstays (everyday_deleteGlobalRefs _) hup) fun _ _ => wp_destroy_unbinds)
  unfold Context.tearDown
  refine wp_bind.mpr (wp_mono (hstays (.ask rfl) hup) fun attached _ hup => ?_)
  cases attached with
  | error code => exact wp_destroy_unbinds hup
  | ok _ =>
    refine wp_bind.mpr (wp_mono (hstays (.ask rfl) hup) fun raised _ hup => ?_)
    cases raised with
    | true => exact wp_bind.mpr (wp_mono (hstays (.ask rfl) hup) fun _ _ => hends)
    | false => exact hends hup

/-! ## Tasks -/

section Queues

variable {method : MethodId} {args : List Arg} {meant : List ArgValue} {obj cls : Ref}
    {entry : MethodEntry}

/-- A call of the asynchronous method has queued a task, or leaves pending what was thrown. -/
theorem wp_callVoid_queues (hmethod : methodEntry? method = some entry)
    (hlater : entry.behaviour = .targetInOutOpAsync) (hmeans : List.Forall₂ rt.refs.Means args meant)
    {Q : Unit → Runtime → Prop}
    (hqueued : ∀ task rt', meant[3]? = some (.long task.callback) → meant[4]? = some (.long task.data) →
      task ∈ rt'.tasks → Q () rt')
    (hthrown : ∀ rt', (rt'.pending? thread).isSome = true → Q () rt') :
    (ask (.callVoid obj cls method args)).wp (loopback thread) Q rt := by
  refine wp_answer (ends_bind (Answering.ends_invoke hmethod fun self values _ _ hresolved => ?_))
  rw [hlater, resolved_eq_of_means hmeans hresolved]
  refine Answering.ends_runMethod_of ((Code.comes_executeLater self meant).mono ?_ ?_)
  · rintro value _ ⟨-, task, hcallback, hdata, rfl⟩
    exact ends_pure fun _ => hqueued task _ hcallback hdata (by simp)
  · intro stop rt' _ thrown _
    refine ends_pure fun _ => hthrown _ ?_
    simp [Runtime.raise, Runtime.pending?]

/-- With a fault pending the check for one fails. -/
theorem Context.wp_checkFault_raised (hraised : (rt.pending? thread).isSome = true)
    {Q : Unit → Runtime → Prop} :
    Operation.wp (loopback thread) ctx.checkFault Q (fun _ _ => True) rt := by
  refine Operation.wp_lift_bind.mpr (wp_answer (ends_bind (ends_get (ends_pure fun _ => ?_))))
  rw [hraised]
  exact Operation.wp_lift_bind.mpr (wp_mono (wp_any _) fun _ _ _ => trivial)

/-- A call is prepared on a context only, and with three arguments that are no references. -/
theorem Handle.wp_prepare_plain {handle : Handle} {current : Option Context} {op : Opcode}
    {shape : Shape}
    {input : Codec.Writer} {Q : Context × List Arg → Runtime → Prop}
    (hok : ∀ ctx code address length rt', current = some ctx →
      Q (ctx, [.int code, .long address, .int length]) rt') :
    Operation.wp (loopback thread) (handle.prepare current op shape input) Q (fun _ _ => True) rt := by
  unfold prepare
  refine Operation.wp_bind.mpr (Operation.wp_liftExcept.mpr ?_)
  cases op.check handle.cls shape with
  | error e => exact trivial
  | ok _ =>
    cases current with
    | none => exact Operation.wp_bind.mpr (Operation.wp_throw.mpr trivial)
    | some ctx =>
      refine Operation.wp_bind.mpr (Operation.wp_pure.mpr ?_)
      refine Operation.wp_bind.mpr (wp_mono (wp_any _) fun attached _ _ => ?_)
      cases attached with
      | error e => exact trivial
      | ok _ =>
        refine Operation.wp_bind.mpr (Operation.wp_liftExcept.mpr ?_)
        unfold wireArgs
        -- a request that is too long is refused, and any other one is passed on
        by_cases hshort : input.position ≤ maxRequestLength
        · rw [if_pos hshort]
          exact hok ctx _ _ _ _ rfl
        · rw [if_neg hshort]
          exact trivial

/-- **An asynchronous call that returns has queued its task**, with its callback and its data. -/
theorem Handle.wp_inOutOpAsync_queues {current : Option Context}
    (hmethods : ∀ ctx, current = some ctx → Found ctx.descriptors) {handle : Handle} {op : Opcode}
    {input : Codec.Writer} {callback : Callback} {data : UInt64} :
    Operation.wp (loopback thread) (handle.inOutOpAsync current op input callback data)
      (fun _ rt' => ∃ task ∈ rt'.tasks, task.callback = .callback callback ∧ task.data = .ofNat64 data)
      (fun _ _ => True) rt := by
  unfold inOutOpAsync
  refine Operation.wp_bind.mpr (wp_prepare_plain fun ctx code address length rt₁ hfound => ?_)
  obtain ⟨entry, hmethod, hlater⟩ :=
    (hmethods ctx hfound).entry ClassName.interopTarget Method.inOutOpAsync
    ctx.descriptors.interopTargetInOutOpAsync .targetInOutOpAsync (by simp [Descriptors.looked])
    (by decide)
  have hmeans : List.Forall₂ rt₁.refs.Means
      [.int code, .long address, .int length, .long (.callback callback), .long (.ofNat64 data)]
      [.int code, .long address, .int length, .long (.callback callback), .long (.ofNat64 data)] :=
    .cons rfl (.cons rfl (.cons rfl (.cons rfl (.cons rfl .nil))))
  refine Operation.wp_lift_bind.mpr (wp_callVoid_queues hmethod hlater hmeans ?_ ?_)
  -- what is read between the call and its end leaves the queue alone
  · intro task rt₂ hsameCallback hsameData hmem
    have hqueued : ∃ task ∈ rt₂.tasks, task.callback = .callback callback ∧ task.data =
      .ofNat64 data := by
      refine ⟨task, hmem, ?_, ?_⟩
      · simpa using hsameCallback.symm
      · simpa using hsameData.symm
    refine Operation.wp_lift_bind.mpr (wp_answer (ends_bind (ends_get (ends_pure fun _ => ?_))))
    split
    · exact Operation.wp_lift_bind.mpr (wp_mono (wp_any _) fun _ _ _ => trivial)
    · exact hqueued
  · exact fun rt₂ hraised => Context.wp_checkFault_raised hraised

end Queues

end GridBridge.Bridge
