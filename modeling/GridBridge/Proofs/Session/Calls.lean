import GridBridge.Proofs.Bridge.Ways
import GridBridge.Proofs.Session.Aims
import GridBridge.Proofs.Session.Stranded

/-!
# What a call on a handle comes to

A call on a handle that is owned is decided in one order, whatever its request is: by whether the target
takes the operation in this way, by whether there is a context, by whether the thread may attach, and
last by the request (**`call_decided`**). A request that is too short is a fault for a call that waits,
and a completion without a result for one that does not (`Waited`, `Queued`).
-/

namespace GridBridge.Bridge

open Protocol Seam Managed

variable {way : Way} {thread : ThreadId} {rt rt₁ : Runtime} {h : Handle} {ctx : Context} {op : Opcode}
  {input : Codec.Writer} {bytes : List UInt8} {store : StoreId} {task : Task}

/-- The request of the call stands at the beginning of these bytes. -/
structure Begins (op : Opcode) (bytes : List UInt8) (call : CacheCall) : Prop where
  same : call.op = op
  wire : call.wire = bytes.take op.requestLength

/-- What the managed side holds against a request that is too short, and how far that can be read. -/
def shortFault (op : Opcode) (length : Nat) (faults : Faults) : ManagedFault :=
  faultOf (malformed op length) faults.messageFaults

/-- The class of the fault is that of the exception, but where the one look-up that fails is followed by
one that does not: then it is that of the exception of the look-up. -/
theorem className_shortFault (op : Opcode) (length : Nat) (faults : Faults) :
    (shortFault op length faults).className = some
      (if faults.messageFaults = .count 1 then "java.lang.OutOfMemoryError"
        else "java.lang.IllegalArgumentException") := by
  have hdots : dotted ThrownClass.illegalArgument.name = "java.lang.IllegalArgumentException" := by
    apply String.toList_inj.mp
    unfold dotted
    rw [String.toList_map]
    decide
  rw [← hdots]
  unfold shortFault faultOf
  split
  · next hnone => rw [hnone, if_neg (by decide)]; rfl
  · next hone => rw [hone, if_pos rfl]
  · next hsome => rw [if_neg hsome]; rfl

namespace Way

/-- The task of a call that does not wait. It keeps the bytes that were written by then. -/
def task? (way : Way) (op : Opcode) (store : StoreId) (bytes : List UInt8) : Option Task :=
  match way with
  | .inOp | .inOutOp => none
  | .inOutOpAsync callback data => some ⟨op, store, bytes, .callback callback, .ofNat64 data⟩

/-- **A call that waits.** A request that is too short comes back as a fault, of an illegal argument where
that can be read, and has changed no cache; nothing is pending after it. Any other is carried out as the
call that it begins with. -/
structure Waited (way : Way) (h : Handle) (ctx : Context) (thread : ThreadId) (op : Opcode)
    (input : Codec.Writer) (bytes : List UInt8) (store : StoreId) (rt rt₁ : Runtime) : Prop where
  short : bytes.length < op.requestLength → ∃ rt',
    way.Arrives h ctx thread op input bytes rt
      (.error (.managedFault (shortFault op bytes.length rt.faults))) rt' ∧
    (shortFault op bytes.length rt.faults).className = some
      (if rt.faults.messageFaults = .count 1 then "java.lang.OutOfMemoryError"
        else "java.lang.IllegalArgumentException") ∧
    rt'.grid = rt.grid ∧ ∀ other, rt'.pending? other = none
  enough : op.requestLength ≤ bytes.length → ∃ call, Begins op bytes call ∧
    way.Arrives h ctx thread op input bytes rt
      (.ok (way.given (call.apply (rt.grid.contents store)).2))
      { rt₁ with grid := rt.grid.setContents store (call.apply (rt.grid.contents store)).1 }

/-- **A call that does not wait** is taken whatever its request is. Only when its task runs, in whatever
has become of the runtime by then, a request that is too short changes nothing and is completed without
a result; any other is carried out as the call that it begins with. -/
structure Queued (way : Way) (h : Handle) (ctx : Context) (thread : ThreadId) (op : Opcode)
    (input : Codec.Writer) (bytes : List UInt8) (store : StoreId) (task : Task)
    (rt rt₁ : Runtime) : Prop where
  taken : way.Arrives h ctx thread op input bytes rt (.ok .queued)
    { rt₁ with tasks := rt₁.tasks ++ [task] }
  short : bytes.length < op.requestLength → ∀ later : Runtime,
    later.runTask task = later.complete task ⟨resultErr, 0⟩
  enough : op.requestLength ≤ bytes.length → ∃ call, Begins op bytes call ∧ ∀ later : Runtime,
    later.runTask task = Runtime.complete
      { later with
        grid := later.grid.setContents store (call.apply (later.grid.contents store)).1 }
      task ⟨resultOk, (call.apply (later.grid.contents store)).2.toUInt64⟩

/-- A call that is made, on the cache of the handle. -/
def Made (way : Way) (h : Handle) (ctx : Context) (thread : ThreadId) (op : Opcode)
    (input : Codec.Writer) (bytes : List UInt8) (store : StoreId) (rt rt₁ : Runtime) : Prop :=
  match way.task? op store bytes with
  | none => way.Waited h ctx thread op input bytes store rt rt₁
  | some task => way.Queued h ctx thread op input bytes store task rt rt₁

/-- **The managed side takes every call that the bridge makes**: it reads the operation and the bytes as
they were sent, whatever its state is. -/
theorem run_operation (way : Way) (hsupported : op.supports way.shape = true)
    (hsmall : bytes.length < 2 ^ 31) (rt : Runtime) :
    (Code.operation (some (.cache store)) (way.values op bytes) way.shape).run.run rt =
      (.ok (store, op, bytes), rt) := by
  cases way with
  | inOp | inOutOp => exact Managed.run_operation hsmall [] hsupported
  | inOutOpAsync callback data => exact Managed.run_operation hsmall _ hsupported

end Way

theorem exists_begins (henough : op.requestLength ≤ bytes.length) : ∃ call, Begins op bytes call := by
  obtain ⟨call, hsame, hwire⟩ := exists_call henough
  exact ⟨call, hsame, hwire⟩

theorem Begins.execute {call : CacheCall} (hbegins : Begins op bytes call) (grid : Grid)
    (store : StoreId) : grid.execute op store bytes =
      .ok (grid.setContents store (call.apply (grid.contents store)).1,
        (call.apply (grid.contents store)).2) := by
  obtain ⟨rfl, hwire⟩ := hbegins
  exact execute_of_take grid store hwire

section Made

variable (hconnects : Connects h ctx thread rt store) (hsupported : op.supports way.shape = true)
  (hcarries : Carries input bytes) (hattaches : rt.attach thread = (.ok (), rt₁))
include hconnects hsupported hcarries hattaches

/-- A request that is too short. -/
theorem arrives_short (hwaits : way.waits = true) (hsound : rt.refs.Sound)
    (hroom : rt.refs.next + 8 ≤ 2 ^ 64) (hclear : ∀ other, rt.pending? other = none)
    (hshort : bytes.length < op.requestLength) : ∃ rt',
      way.Arrives h ctx thread op input bytes rt
        (.error (.managedFault (shortFault op bytes.length rt.faults))) rt' ∧
      rt'.grid = rt.grid ∧ ∀ other, rt'.pending? other = none := by
  obtain ⟨rt', harrives, hrelieved⟩ :=
    arrives_thrown hconnects hsupported hcarries hattaches hwaits hsound hroom
      (execute_short rt.grid store hshort)
  obtain rfl := attach_eq_ok hattaches
  refine ⟨rt', harrives, ?_, fun other => ?_⟩
  · rw [hrelieved.rest, attachThread_eq]
    rfl
  -- what was pending on this thread is taken, and the other threads are as before
  · by_cases hhere : other = thread
    · rw [hhere]
      exact hrelieved.clear
    · rw [hrelieved.others other hhere, Runtime.pending?_raise, if_neg hhere, attachThread_eq]
      exact hclear other

theorem made_of_connects (hsound : rt.refs.Sound) (hroom : rt.refs.next + 8 ≤ 2 ^ 64)
    (hclear : ∀ other, rt.pending? other = none) :
    way.Made h ctx thread op input bytes store rt rt₁ := by
  -- the two ways that wait differ in their method only
  have hwaited (hwaits : way.waits = true) : way.Waited h ctx thread op input bytes store rt rt₁ := by
    refine ⟨fun hshort => ?_, fun henough => ?_⟩
    · obtain ⟨rt', harrives, hsame⟩ :=
        arrives_short hconnects hsupported hcarries hattaches hwaits hsound hroom hclear hshort
      exact ⟨rt', harrives, className_shortFault op bytes.length rt.faults, hsame⟩
    · obtain ⟨call, hbegins⟩ := exists_begins henough
      exact ⟨call, hbegins, arrives_result hconnects hsupported hcarries hattaches hwaits
        (hbegins.execute rt.grid store)⟩
  cases way with
  | inOp | inOutOp => exact hwaited rfl
  | inOutOpAsync callback data =>
    refine ⟨arrives_queued hconnects hsupported hcarries hattaches rfl, fun hshort later => ?_,
      fun henough => ?_⟩
    · exact runTask_of_error (execute_short later.grid store hshort)
    · obtain ⟨call, hbegins⟩ := exists_begins henough
      exact ⟨call, hbegins, fun later => runTask_of_ok (hbegins.execute later.grid store)⟩

end Made

end GridBridge.Bridge

namespace GridBridge.Session.Crew

open Protocol Seam Bridge Managed Relay

variable {n : Nat} {c : Crew} {handle : Handle} {thread : ThreadId} {ctx : Context}

/-- A handle of a cache that is owned reaches its cache, through the class that the context has for it. -/
theorem connects_of_reachable (h : c.ReachableIn n) (hinRange : InRange c.world.session)
    (howned : handle ∈ c.world.owned) (hcache : handle.cls = .cache)
    (hctx : contextOn thread c.world.session = some ctx) :
    ∃ store, c.runtime.refs.get? handle.target = some (.cache store) ∧
      Connects handle ctx thread c.runtime store := by
  obtain ⟨leaked, hsettled⟩ := (orderly_of_reachable h hinRange).settled
  have hbalanced := hsettled.balanced
  obtain ⟨ctx', hctx', hsame⟩ := descriptors_of_contextOn hctx
  have hserves := hbalanced.up ctx' hctx'
  -- a reference that is live leads to the object that it was handed out for
  have hleads {r : Ref} {object : Object} (hmem : r ∈ c.runtime.refs.tokens .globalRef)
      (hmarks : c.runtime.refs.Marks r (some object)) :
      c.runtime.refs.get? r = some object := by
    obtain ⟨e, hlive, _, rfl⟩ := RefTable.mem_tokens.mp hmem
    rw [hbalanced.sound.get?_eq hlive, hmarks.2.2 e hlive rfl]
  -- that of the handle leads to a cache
  have hmem : handle.target ∈ c.runtime.refs.tokens .globalRef := by
    rw [hserves.globals]
    exact Multiset.mem_add.mpr (.inl (Multiset.mem_add.mpr (.inl (World.mem_targets howned))))
  obtain ⟨object, hmarks, hisTarget⟩ := aims_of_reachable h hinRange handle howned
  have hget := hleads hmem hmarks
  obtain ⟨store, rfl⟩ : ∃ store, object = .cache store := by
    rw [hcache] at hisTarget
    cases object with
    | cache store => exact ⟨store, rfl⟩
    | _ => cases hisTarget
  -- and that of the descriptors to the class of caches
  obtain ⟨classes, hbound, hnames⟩ := hserves.bound
  have hknown : (ctx'.descriptors.interopCache, ClassName.interopCache) ∈ ctx'.descriptors.named := by
    simp [Descriptors.named]
  have hmarked := RefTable.names_iff.mp (hnames _ (hbound.known _ hknown))
  have hmem' : ctx'.descriptors.interopCache ∈ c.runtime.refs.tokens .globalRef := by
    rw [hserves.globals]
    exact Multiset.mem_add.mpr (.inr (by simp [Descriptors.classes]))
  exact ⟨store, hget, {
    cls := hcache
    found := hbalanced.found_contextOn hctx
    clear := hbalanced.clear thread
    target := .inr ⟨hmarks.1, rfl, hget⟩
    through := hsame ▸ .inr ⟨hmarked.1, rfl, hleads hmem' hmarked⟩ }⟩

/-- **What a call on a handle comes to.** In every state that users and workers come to, for every handle
that is owned, every thread, operation, way to call and whatever fields were written, up to 2 GiB:

* where the target does not take the operation in this way, that is a violation of the protocol, and
  nothing is asked, with a context or without one;
* else, without a context the call ends in that, and nothing is asked;
* else, where the thread may not attach, that is the error, and no method is called;
* else the managed side is handed the operation and the bytes as they were written, it takes them, and the
  call is made on the cache that the handle leads to: see `Way.Waited` and `Way.Queued`.

The bound is the width of a token, for those that reading a fault hands out. -/
theorem call_decided (h : c.ReachableIn n) (hroom : c.runtime.refs.next + 8 ≤ 2 ^ 64)
    (howned : handle ∈ c.world.owned) (thread : ThreadId) (op : Opcode) (way : Way)
    (capacity : Nat) (hpositive : 0 < capacity) (fields : List Codec.Field)
    (hsmall : Codec.widths fields < 2 ^ 31) :
    let input := (Codec.Writer.ofCapacity capacity hpositive).writeAll fields
    let bytes := fields.flatMap Codec.Field.wire
    let takes := op.targetClass = handle.cls ∧ op.supports way.shape = true
    let current := contextOn thread c.world.session
    (¬ takes → ∀ current : Option Context, ∃ violation, (way.perform handle current op input).run =
        .done (.error (.protocolViolation violation))) ∧
      (takes → current = none →
        (way.perform handle current op input).run = .done (.error .runtimeTornDown)) ∧
      (takes → ∀ ctx, current = some ctx → ∀ code, (c.runtime.attach thread).1 = .error code →
        Plays thread c.runtime (way.perform handle current op input).run
          [.called .attach (.error code)] (.error (.attach code)) c.runtime) ∧
      (takes → ∀ ctx, current = some ctx → ∀ rt₁, c.runtime.attach thread = (.ok (), rt₁) →
        ∃ store, c.runtime.refs.get? handle.target = some (.cache store) ∧
          (∀ rt : Runtime,
            (Code.operation (some (.cache store)) (way.values op bytes) way.shape).run.run rt =
              (.ok (store, op, bytes), rt)) ∧
          way.Made handle ctx thread op input bytes store c.runtime rt₁) := by
  intro input bytes takes current
  have hcarries : Carries input bytes := carries_writeAll capacity hpositive hsmall
  refine ⟨fun hrefused current => ?_, fun htaken hgone => ?_, fun htaken ctx hctx code hrefused => ?_,
    fun htaken ctx hctx rt₁ hattaches => ?_⟩
  · obtain ⟨violation, hchecked⟩ := check_refused hrefused
    exact ⟨violation, way.perform_unsupported hchecked⟩
  · rw [hgone]
    exact way.perform_torn (check_taken htaken.1 htaken.2)
  · rw [hctx]
    exact way.plays_refused (check_taken htaken.1 htaken.2) (attach_eq_error hrefused)
  -- an owned handle is a cache's here, since only caches take an operation
  · have hinRange : InRange c.world.session := Nat.le_of_add_right_le hroom
    have hcache : handle.cls = .cache := by
      rw [← htaken.1]
      cases op <;> rfl
    obtain ⟨store, hget, hconnects⟩ := connects_of_reachable h hinRange howned hcache hctx
    obtain ⟨leaked, hsettled⟩ := (orderly_of_reachable h hinRange).settled
    exact ⟨store, hget, way.run_operation htaken.2 hcarries.small,
      made_of_connects hconnects htaken.2 hcarries hattaches hsettled.balanced.sound hroom
        hsettled.balanced.clear⟩

/-- A put of one number is too short, and no message fault is armed: the fault says so. -/
theorem call_decided_putting : ReachableIn 1 { world := putting } ∧
    putting.session.runtime.refs.next + 8 ≤ 2 ^ 64 ∧
    { target := ⟨24⟩, cls := .cache } ∈ putting.owned ∧ Codec.widths [.int 1] < 2 ^ 31 ∧
    ∃ ctx rt', contextOn 0 putting.session = some ctx ∧
      Way.inOp.Arrives { target := ⟨24⟩, cls := .cache } ctx 0 .put
        ((Codec.Writer.ofCapacity 4 (by decide)).writeAll [.int 1]) [1, 0, 0, 0] putting.session.runtime
        (.error (.managedFault
          ⟨"Malformed PUT(0) request: 4 bytes", some "java.lang.IllegalArgumentException"⟩)) rt' ∧
      rt'.grid = putting.session.runtime.grid ∧ ∀ other, rt'.pending? other = none := by
  have hfacts : putting.session.runtime.refs.next + 8 ≤ 2 ^ 64 ∧
      { target := ⟨24⟩, cls := .cache } ∈ putting.owned ∧
      (contextOn 0 putting.session).isSome = true ∧ (putting.session.runtime.attach 0).1 = .ok () ∧
      putting.session.runtime.faults.messageFaults = .count 0 := by decide +kernel
  obtain ⟨hroom, howned, hlive, hattaches, hunarmed⟩ := hfacts
  obtain ⟨ctx, hctx⟩ := Option.isSome_iff_exists.mp hlive
  obtain ⟨-, -, -, hmade⟩ := @call_decided 1 { world := putting } { target := ⟨24⟩, cls := .cache }
    putting_reachable hroom howned 0 .put .inOp 4 (by decide) [.int 1] (by decide)
  obtain ⟨store, -, -, hwaited⟩ := hmade (by decide) ctx hctx _ (Prod.ext hattaches rfl)
  obtain ⟨rt', harrives, hclassName, hgrid, hclear⟩ := hwaited.short (by decide)
  -- nothing is armed, so the message comes through at the first attempt
  have hfault : shortFault .put 4 putting.session.runtime.faults =
      ⟨"Malformed PUT(0) request: 4 bytes", some "java.lang.IllegalArgumentException"⟩ := by
    rw [hunarmed, if_neg (by decide)] at hclassName
    have hmessage : (shortFault .put 4 putting.session.runtime.faults).message =
        "Malformed PUT(0) request: 4 bytes" := by
      unfold shortFault
      rw [hunarmed]
      decide +kernel
    exact congrArg₂ ManagedFault.mk hmessage hclassName
  exact ⟨putting_reachable, hroom, howned, by decide, ctx, rt', hctx, hfault ▸ harrives, hgrid, hclear⟩

/-! ### A fault of another class -/

/-- The next look-up of a message fails. -/
def faltering : World := putting.next (.switch (.failMessages (.count 1))) (.ok none)

/-- The request is too short, but the fault that comes back is that of the look-up. -/
theorem faltering_names_another : ReachableIn 1 { world := faltering } ∧
    { target := ⟨24⟩, cls := .cache } ∈ faltering.owned ∧
    (∀ thread, faltering.session.runtime.pending? thread = none) ∧
    ((perform 0 (Handle.inOp { target := ⟨24⟩, cls := .cache } (contextOn 0 faltering.session) .put
      ((Codec.Writer.ofCapacity 4 (by decide)).writeAll [.int 1]))).run.run faltering.session).1 =
        .ok (.error (.managedFault ⟨"Java heap space", some "java.lang.OutOfMemoryError"⟩)) := by
  have harmed : putting.Goes (.switch (.failMessages (.count 1))) (.ok none) faltering :=
    World.goes_next nofun rfl
  have hnone : faltering.session.runtime.pending = [] := by decide +kernel
  obtain ⟨s, hunused, htasks, hreaches⟩ := putting_reachable
  refine ⟨⟨s, hunused, htasks, hreaches.goes harmed nofun⟩, by decide +kernel, fun thread => ?_,
    by decide +kernel⟩
  unfold Runtime.pending?
  rw [hnone]
  rfl

end GridBridge.Session.Crew
