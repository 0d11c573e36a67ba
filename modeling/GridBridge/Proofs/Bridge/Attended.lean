import GridBridge.Proofs.Bridge.Upkeep

/-!
# The bridge attaches first

Each operation of the bridge attaches its thread before it calls anything, and goes no further if that
is refused. So whatever the phase of the runtime is, it is called only while it runs, and it is
destroyed only if it was made: **`attending`** is this as a contract over the phase, and every operation
keeps to it (**`Attended`**). A start that succeeds leaves the runtime running
(`Context.wp_start_attending`), and what is torn down was made (`Context.wp_tearDown_attending`).
-/

namespace GridBridge.Bridge

open Protocol Seam Seam.Script Managed

variable {α β : Type} {phase : Phase}

/-! ## The contract -/

/-- Threads call a runtime while it runs, and a runtime that was made is destroyed. -/
def attending : Contract Phase where
  takes phase request :=
    (request.onThread = true → phase = .running) ∧ (request = .destroy → phase ≠ .idle)
  answers phase request reply phase' :=
    match request, reply with
    | .launch _, .ok _ => phase' = .running
    | .attach, .ok _ => phase = .running ∧ phase' = .running
    | .destroy, _ => phase' = .destroyed
    | _, _ => phase' = phase

/-- The script keeps to the contract whatever the phase is. -/
def Attended (script : Script α) : Prop := ∀ phase, script.wp attending (fun _ _ => True) phase

/-- A launch makes a runtime that runs, or leaves the phase as it was. -/
theorem wp_launch_attending {args : LaunchArgs} {Q : Except Status Unit → Phase → Prop}
    (hmade : Q (.ok ()) .running) (hfailed : ∀ code, Q (.error code) phase) :
    (ask (.launch args)).wp attending Q phase := by
  refine wp_ask.mpr ⟨⟨nofun, nofun⟩, fun reply phase' hanswers => ?_⟩
  cases reply with
  | ok _ =>
    obtain rfl : phase' = .running := hanswers
    exact hmade
  | error code =>
    obtain rfl : phase' = phase := hanswers
    exact hfailed code

/-- Only a runtime that runs takes a thread. -/
theorem wp_attach_attending {Q : Except Status Unit → Phase → Prop}
    (htaken : phase = .running → Q (.ok ()) .running) (hfailed : ∀ code, Q (.error code) phase) :
    (ask .attach).wp attending Q phase := by
  refine wp_ask.mpr ⟨⟨nofun, nofun⟩, fun reply phase' hanswers => ?_⟩
  cases reply with
  | ok _ =>
    obtain ⟨hup, rfl⟩ : phase = .running ∧ phase' = .running := hanswers
    exact htaken hup
  | error code =>
    obtain rfl : phase' = phase := hanswers
    exact hfailed code

/-- A runtime that was made can be destroyed. -/
theorem wp_destroy_attending {Q : Unit → Phase → Prop} (hmade : phase ≠ .idle)
    (hended : Q () .destroyed) : (ask .destroy).wp attending Q phase := by
  refine wp_ask.mpr ⟨⟨nofun, fun _ => hmade⟩, fun _ phase' hanswers => ?_⟩
  obtain rfl : phase' = .destroyed := hanswers
  exact hended

/-- A call on a thread is taken while the runtime runs, and leaves it running. -/
theorem wp_onThread_attending {request : Call} (honThread : request.onThread = true)
    {Q : request.Reply → Phase → Prop} (hstays : ∀ reply, Q reply .running) :
    (ask request).wp attending Q .running := by
  refine wp_ask.mpr ⟨⟨fun _ => rfl, ?_⟩, fun reply phase' hanswers => ?_⟩
  · rintro rfl
    cases honThread
  · cases request with
    | launch _ | attach | destroy => cases honThread
    | _ =>
      obtain rfl : phase' = .running := hanswers
      exact hstays reply

/-- Everyday calls may come in any number while the runtime runs, and leave it running. -/
theorem wp_everyday_attending {script : Script α} (heveryday : Everyday script) {Q : α → Phase → Prop}
    (hstays : ∀ value, Q value .running) : script.wp attending Q .running := by
  induction script with
  | done value => exact hstays value
  | call request next ih =>
    show (ask request >>= next).wp attending Q .running
    refine wp_bind.mpr ?_
    -- wherever an everyday call leads, the runtime still runs
    have hrest (reply : request.Reply) : (next reply).wp attending Q .running :=
      ih reply (heveryday.2 reply)
    cases request with
    | launch _ | destroy | registerNatives _ _ => cases heveryday.1
    | attach => exact wp_attach_attending (fun _ => hrest _) fun _ => hrest _
    | _ => exact wp_onThread_attending rfl hrest
  | report fault next ih => exact ih heveryday.2

/-! ## Operations -/

/-- A script that asks nothing keeps to any contract. -/
theorem attended_done (value : α) : Attended (.done value) := fun _ => trivial

/-- A script that attaches first and stops if that is refused. -/
theorem attended_of_attach {next : Call.attach.Reply → Script α}
    (heveryday : Everyday (.call .attach next))
    (hstops : ∀ code, ∃ value, next (.error code) = .done value) : Attended (.call .attach next) := by
  intro phase
  show (ask .attach >>= next).wp attending _ phase
  refine wp_bind.mpr (wp_attach_attending ?_ fun code => ?_)
  -- taken, the thread goes on with everyday calls; refused, it asks nothing more
  · exact fun _ => wp_everyday_attending (heveryday.2 _) fun _ => trivial
  · obtain ⟨value, hstop⟩ := hstops code
    rw [hstop]
    exact trivial

/-- To attach is to attach first. -/
theorem attended_attach : Attended Context.attach.run :=
  attended_of_attach keeps_attach.everyday fun _ => ⟨_, rfl⟩

/-- So does a start. -/
theorem attended_start (ctx : Context) (configPath name : String) :
    Attended (Instance.start ctx configPath name).run :=
  attended_of_attach (keeps_start ctx configPath name).everyday fun _ => ⟨_, rfl⟩

/-- So does a look-up. -/
theorem attended_find (ctx : Context) (name : String) : Attended (Instance.find ctx name).run :=
  attended_of_attach (keeps_find ctx name).everyday fun _ => ⟨_, rfl⟩

section Handles

variable (current : Option Context)

/-- A cache is asked for once the thread has attached, and without a context not at all. -/
theorem attended_cache (source : Instance) (name : Option String) :
    Attended (source.cache current name).run := by
  have heveryday := (keeps_cache current source name).everyday
  cases current with
  | none => exact attended_done _
  | some ctx => exact attended_of_attach heveryday fun _ => ⟨_, rfl⟩

/-- What a handle is prepared for comes after its thread was attached. -/
theorem attended_prepared {handle : Handle} {op : Opcode} {shape : Shape} {input : Codec.Writer}
    {f : Context × List Arg → Operation α}
    (heveryday : Everyday (handle.prepare current op shape input >>= f).run) :
    Attended (handle.prepare current op shape input >>= f).run := by
  unfold Handle.prepare at heveryday ⊢
  revert heveryday
  -- without permission or context nothing is asked at all
  cases op.check handle.cls shape with
  | error e => exact fun _ => attended_done _
  | ok _ =>
    cases current with
    | none => exact fun _ => attended_done _
    | some ctx => exact fun heveryday => attended_of_attach heveryday fun _ => ⟨_, rfl⟩

variable (handle : Handle) (op : Opcode) (input : Codec.Writer)

/-- A call that waits for 32 bits. -/
theorem attended_inOp : Attended (handle.inOp current op input).run :=
  attended_prepared current (keeps_inOp current handle op input).everyday

/-- A call that waits for 64 bits. -/
theorem attended_inOutOp : Attended (handle.inOutOp current op input).run :=
  attended_prepared current (keeps_inOutOp current handle op input).everyday

/-- A call that is completed later. -/
theorem attended_inOutOpAsync (callback : Callback) (data : UInt64) :
    Attended (handle.inOutOpAsync current op input callback data).run :=
  attended_prepared current (keeps_inOutOpAsync current handle op input callback data).everyday

/-- A removal is a call on the cache. -/
theorem attended_remove (cache : Cache) (key : Int32) : Attended (cache.remove current key).run := by
  intro phase
  unfold Cache.remove
  rw [ExceptT.run_bind, wp_bind]
  refine wp_mono (attended_inOp current cache.handle .remove (Cache.keyRequest key) phase) ?_
  rintro (_ | _) _ _ <;> exact trivial

/-- What a handle owns is given back once the thread has attached, and without a context not at all. -/
theorem attended_release : Attended (handle.release current) := by
  have heveryday := everyday_release handle current
  cases current with
  | none => exact attended_done _
  | some ctx => exact attended_of_attach heveryday fun _ => ⟨_, rfl⟩

end Handles

/-! ## Resolution -/

/-- Calls that make and give back references to classes and look methods up. -/
def Resolves : Call → Prop
  | .findClass _ | .getMethodId .. | .newGlobalRef _ | .deleteLocalRef _ => True
  | _ => False

/-- These are everyday calls. -/
theorem everyday_of_resolves {request : Call} (h : Resolves request) : request.everyday = true := by
  cases request <;> first | rfl | exact h.elim

/-- A step of resolution that makes calls of this kind. -/
def Searches (x : Descriptors.Resolving α) : Prop :=
  ∀ progress, (x.run.run progress).Makes Resolves fun _ => False

theorem searches_pure (value : α) :
    Searches (pure value : Descriptors.Resolving α) := fun _ => trivial

/-- To give up makes no call. -/
theorem searches_throw (e : Unresolved) :
    Searches (throw e : Descriptors.Resolving α) := fun _ => trivial

/-- To note how far the resolution has come makes no call. -/
theorem searches_modify (f : Descriptors.Progress → Descriptors.Progress) :
    Searches (modify f : Descriptors.Resolving PUnit) := fun _ => trivial

/-- A call of this kind. -/
theorem searches_ask (request : Call) (hresolves : Resolves request) :
    Searches (Descriptors.Resolving.ask request) :=
  fun _ => .bind (.bind (.ask hresolves) fun _ => .pure _) fun _ => .pure _

/-- Steps in a row make the calls of both, and those of the first alone if that gives up. -/
theorem Searches.bind {x : Descriptors.Resolving α} {f : α → Descriptors.Resolving β} (hx : Searches x)
    (hf : ∀ value, Searches (f value)) : Searches (x >>= f) := by
  intro progress
  rw [ExceptT.run_bind, StateT.run_bind]
  refine .bind (hx progress) fun ended => ?_
  obtain ⟨e | value, progress'⟩ := ended
  · exact .pure _
  · exact hf value progress'

/-- A class is looked up and made durable, and the reference to it that was found is given back. -/
theorem searches_resolveClass (name : String) : Searches (Descriptors.resolveClass name) := by
  refine (searches_ask (.findClass name) trivial).bind fun found => ?_
  split
  · exact searches_throw _
  · refine (searches_ask (.newGlobalRef found) trivial).bind fun kept => ?_
    refine (searches_ask (.deleteLocalRef found) trivial).bind fun _ => ?_
    split
    · exact searches_throw _
    · exact (searches_modify _).bind fun _ => searches_pure kept

/-- A method is looked up. -/
theorem searches_resolveMethod (cls : Ref) (className : String) (spec : MethodSpec) :
    Searches (Descriptors.resolveMethod cls className spec) := by
  refine (searches_ask (.getMethodId cls spec) trivial).bind fun id => ?_
  cases id with
  | some id => exact searches_pure id
  | none => exact searches_throw _

/-- So the whole resolution makes no other calls. -/
theorem searches_resolveAll : Searches Descriptors.resolveAll := by
  unfold Descriptors.resolveAll
  -- classes and methods take turns
  repeat
    refine Searches.bind (by first
      | exact searches_resolveClass _
      | exact searches_resolveMethod _ _ _
      | exact searches_modify _) fun _ => ?_
  exact searches_pure _

/-- With what has to be given back after a class or a method is missing, too. -/
theorem everyday_resolve : Everyday Descriptors.resolve := by
  have hsearched := (searches_resolveAll {}).mono_calls fun _ => everyday_of_resolves
  refine .bind (hsearched.mono nofun) fun ended => ?_
  obtain ⟨missing | d, progress⟩ := ended
  · exact .bind (everyday_deleteGlobalRefs progress.globals) fun _ => .pure _
  · exact .pure _

/-- Neither does the description of what stopped a start make other calls. -/
theorem everyday_describeStartupFault (classGetName throwableToString : Option MethodId) :
    Everyday (describeStartupFault classGetName throwableToString) :=
  (reads_of_looking (looking_describeStartupFault classGetName throwableToString)).keeps.everyday

/-! ## Starting and tearing down -/

namespace Context

/-- A start that is given up ends the runtime that it has made. -/
theorem wp_abortStart_attending (code : Status) (what : String)
    (classGetName throwableToString : Option MethodId) :
    (abortStart code what classGetName throwableToString).wp attending (fun _ _ => True) .running := by
  unfold abortStart
  refine wp_bind.mpr (wp_everyday_attending (everyday_describeStartupFault _ _) fun _ => ?_)
  exact wp_bind.mpr (wp_destroy_attending nofun trivial)

/-- **A start that succeeds leaves the runtime running**, and one that fails destroys only a runtime
that it has made. -/
theorem wp_start_attending (args : LaunchArgs) :
    Operation.wp attending (Context.start args) (fun _ phase' => phase' = .running)
      (fun _ _ => True) phase := by
  unfold Context.start
  refine Operation.wp_lift_bind.mpr (wp_launch_attending ?_ fun _ => trivial)
  -- from here on there is a runtime, whose end every failure brings
  refine Operation.wp_lift_bind.mpr (wp_attach_attending (fun _ => ?_) fun _ => ?_)
  · refine Operation.wp_lift_bind.mpr (wp_everyday_attending everyday_resolve fun resolved => ?_)
    -- a class that is missing, and natives that cannot be registered, both end the runtime again
    cases resolved with
    | error failure =>
      exact Operation.wp_lift_bind.mpr (wp_mono (wp_abortStart_attending ..) fun _ _ _ => trivial)
    | ok d =>
      refine Operation.wp_lift_bind.mpr (wp_onThread_attending rfl fun status => ?_)
      split
      · exact rfl
      · refine Operation.wp_lift_bind.mpr
          (wp_everyday_attending (everyday_deleteGlobalRefs _) fun _ => ?_)
        exact Operation.wp_lift_bind.mpr (wp_mono (wp_abortStart_attending ..) fun _ _ _ => trivial)
  · exact Operation.wp_lift_bind.mpr (wp_destroy_attending nofun trivial)

/-- What is torn down was made, whether the thread can attach or not. -/
theorem wp_tearDown_attending (ctx : Context) (hmade : phase ≠ .idle) :
    ctx.tearDown.wp attending (fun _ _ => True) phase := by
  have hends {phase : Phase} (hmade : phase ≠ .idle) :
      (ask .destroy).wp attending (fun _ _ => True) phase := wp_destroy_attending hmade trivial
  have hreturns : Script.wp attending (do
      ctx.descriptors.release
      ask .destroy) (fun _ _ => True) .running :=
    wp_bind.mpr (wp_everyday_attending (everyday_deleteGlobalRefs _) fun _ => hends nofun)
  unfold Context.tearDown
  refine wp_bind.mpr (wp_attach_attending (fun _ => ?_) fun _ => hends hmade)
  refine wp_bind.mpr (wp_onThread_attending rfl fun raised => ?_)
  -- an exception that was left is cleared before references are given back
  cases raised with
  | true => exact wp_bind.mpr (wp_onThread_attending rfl fun _ => hreturns)
  | false => exact hreturns

end Context

end GridBridge.Bridge
