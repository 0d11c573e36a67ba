import GridBridge.Proofs.Bridge.Taken
import GridBridge.Proofs.Managed.Requests

/-!
# Calls with any request

A **`Way`** is one of the three ways to call a target. A call that is not made ends before the seam
(`Way.perform_unsupported`, `Way.perform_torn`) or at the attach (`plays_refused`). One that is made
hands over its opcode and every byte that was written; then a call that waits comes back with the result
of the operation (`arrives_result`) or with what was thrown for a fault (`arrives_thrown`), and a call
that does not wait is queued (`arrives_queued`).
-/

namespace GridBridge.Bridge

open Protocol Seam Seam.Script Managed

/-! ## Ways to call a target -/

/-- The three ways to call a target, with what each hands over behind the request. -/
inductive Way where
  | inOp
  | inOutOp
  | inOutOpAsync (callback : Callback) (data : UInt64)
  deriving DecidableEq, Repr

/-- What a call gives back. -/
inductive Given where
  | word32 (value : Int32)
  | word64 (value : UInt64)
  | queued
  deriving DecidableEq, Repr

/-- Code, address and length of a request of these bytes. -/
def wordsOf (op : Opcode) (bytes : List UInt8) : List Arg :=
  [.int op.code, .long (.buffer bytes), .int (Int32.ofNat bytes.length)]

/-- A request of these bytes, which the wire format can name. -/
structure Carries (input : Codec.Writer) (bytes : List UInt8) : Prop where
  written : input.bytes = bytes
  position : input.position = bytes.length
  small : bytes.length < 2 ^ 31

namespace Way

def shape : Way → Shape
  | .inOp => .inOp
  | .inOutOp => .inOut
  | .inOutOpAsync .. => .inOutAsync

/-- Makes the call on a handle. -/
def perform (way : Way) (h : Handle) (current : Option Context) (op : Opcode)
    (input : Codec.Writer) : Operation Given :=
  match way with
  | .inOp => do return .word32 (← h.inOp current op input)
  | .inOutOp => do return .word64 (← h.inOutOp current op input)
  | .inOutOpAsync callback data => do
    h.inOutOpAsync current op input callback data
    return .queued

/-- The call across the seam, with a request of these bytes. -/
def request (way : Way) (h : Handle) (ctx : Context) (op : Opcode) (bytes : List UInt8) : Call :=
  match way with
  | .inOp =>
    .callInt h.target (h.dispatchClass ctx) ctx.descriptors.interopTargetInOp (wordsOf op bytes)
  | .inOutOp =>
    .callLong h.target (h.dispatchClass ctx) ctx.descriptors.interopTargetInOutOp (wordsOf op bytes)
  | .inOutOpAsync callback data =>
    .callVoid h.target (h.dispatchClass ctx) ctx.descriptors.interopTargetInOutOpAsync
      (wordsOf op bytes ++ [.long (.callback callback), .long (.ofNat64 data)])

/-- What the method is called with. -/
def values (way : Way) (op : Opcode) (bytes : List UInt8) : List ArgValue :=
  match way with
  | .inOp | .inOutOp => requestArgs op bytes
  | .inOutOpAsync callback data =>
    requestArgs op bytes ++ [.long (.callback callback), .long (.ofNat64 data)]

/-- Whether the call comes back with the result of the operation. -/
def waits : Way → Bool
  | .inOp | .inOutOp => true
  | .inOutOpAsync .. => false

/-- What comes back of a result. -/
def given (way : Way) (result : Int64) : Given :=
  match way with
  | .inOp => .word32 result.toInt32
  | .inOutOp => .word64 result.toUInt64
  | .inOutOpAsync .. => .queued

/-- The call is made: after the attach the managed side is handed the opcode and these bytes, and in the
end the call comes to this and leaves that runtime. -/
def Arrives (way : Way) (h : Handle) (ctx : Context) (thread : ThreadId) (op : Opcode)
    (input : Codec.Writer) (bytes : List UInt8) (rt : Runtime) (outcome : Except BridgeError Given)
    (rt' : Runtime) : Prop :=
  ∃ reply events, Plays thread rt (way.perform h (some ctx) op input).run
    (.called .attach (.ok ()) :: .called (way.request h ctx op bytes) reply :: events) outcome rt'

end Way

variable {way : Way} {thread : ThreadId} {rt rt₁ rt' : Runtime} {h : Handle} {ctx : Context}
  {op : Opcode} {input : Codec.Writer} {bytes : List UInt8} {store : StoreId}
  {current : Option Context} {shape : Shape} {thrown : Thrown}

theorem Carries.wireArgs (hcarries : Carries input bytes) (op : Opcode) :
    Handle.wireArgs op input = .ok (wordsOf op bytes) := by
  have hshort : input.position ≤ Handle.maxRequestLength := by
    have hsmall := hcarries.small
    rw [hcarries.position]
    unfold Handle.maxRequestLength
    omega
  unfold Handle.wireArgs
  rw [if_pos hshort, hcarries.written, hcarries.position]
  rfl

/-- What the wire format can name of what was written. -/
theorem carries_writeAll (capacity : Nat) (hpositive : 0 < capacity) {fields : List Codec.Field}
    (hsmall : Codec.widths fields < 2 ^ 31) :
    Carries ((Codec.Writer.ofCapacity capacity hpositive).writeAll fields)
      (fields.flatMap Codec.Field.wire) := by
  have hexactly := (Codec.Writer.exactly_ofCapacity capacity hpositive).writeAll fields
  rw [List.nil_append] at hexactly
  refine ⟨hexactly.bytes, ?_, ?_⟩
  · rw [Codec.length_wire]
    exact hexactly.position
  · rw [Codec.length_wire]
    exact hsmall

/-! ## Calls that are not made -/

/-- An operation that the target and the shape take passes its check. -/
theorem check_taken {cls : TargetClass} (htarget : op.targetClass = cls)
    (hsupported : op.supports shape = true) : op.check cls shape = .ok () := by
  unfold Opcode.check
  rw [if_neg (not_not_intro htarget), if_pos hsupported]

/-- Any other violates the protocol. -/
theorem check_refused {cls : TargetClass}
    (hrefused : ¬ (op.targetClass = cls ∧ op.supports shape = true)) :
    ∃ violation, op.check cls shape = .error (.protocolViolation violation) := by
  unfold Opcode.check
  by_cases htarget : op.targetClass = cls
  · rw [if_neg (not_not_intro htarget), if_neg fun hsupported => hrefused ⟨htarget, hsupported⟩]
    exact ⟨_, rfl⟩
  · rw [if_pos htarget]
    exact ⟨_, rfl⟩

/-- A call ends where its preparation ends, if that asks for nothing. -/
theorem Way.perform_of_prepare (way : Way) {e : BridgeError}
    (hstops : (h.prepare current op way.shape input).run = .done (.error e)) :
    (way.perform h current op input).run = .done (.error e) := by
  have hends {α β : Type} {x : Operation α} (f : α → Operation β) (hsame : x.run = .done (.error e)) :
      (x >>= f).run = .done (.error e) := by
    rw [ExceptT.run_bind, hsame]
    rfl
  cases way with
  | inOp => exact hends _ (hends _ hstops)
  | inOutOp => exact hends _ (hends _ hstops)
  | inOutOpAsync callback data => exact hends _ (hends _ hstops)

/-- An operation that the target or the shape does not take ends before anything is asked, whether there
is a context or not. -/
theorem Way.perform_unsupported (way : Way) {e : BridgeError}
    (hchecked : op.check h.cls way.shape = .error e) :
    (way.perform h current op input).run = .done (.error e) := by
  refine way.perform_of_prepare ?_
  unfold Handle.prepare
  rw [hchecked]
  rfl

/-- Without a context a call ends before anything is asked. -/
theorem Way.perform_torn (way : Way) (hchecked : op.check h.cls way.shape = .ok ()) :
    (way.perform h none op input).run = .done (.error .runtimeTornDown) := by
  refine way.perform_of_prepare ?_
  unfold Handle.prepare
  rw [hchecked]
  rfl

theorem Way.plays_of_prepare (way : Way) {e : BridgeError} {events : List Event}
    (hstops : Plays thread rt (h.prepare current op way.shape input).run events (.error e) rt') :
    Plays thread rt (way.perform h current op input).run events (.error e) rt' := by
  cases way with
  | inOp => exact (hstops.error_bind).error_bind
  | inOutOp => exact (hstops.error_bind).error_bind
  | inOutOpAsync callback data => exact (hstops.error_bind).error_bind

/-- A thread that may not attach changes nothing by trying to. -/
theorem attach_eq_error {code : Status} (hrefused : (rt.attach thread).1 = .error code) :
    rt.attach thread = (.error code, rt) := by
  refine Prod.ext hrefused ?_
  unfold Runtime.attach at hrefused ⊢
  by_cases hup : rt.phase ≠ .running
  · rw [if_pos hup]
  · rw [if_neg hup] at hrefused ⊢
    by_cases hrefuses : rt.faults.refuseAttach = true
    · rw [if_pos hrefuses]
    · rw [if_neg hrefuses] at hrefused
      cases hrefused

/-- A thread that may not attach makes no call. -/
theorem Way.plays_refused (way : Way) (hchecked : op.check h.cls way.shape = .ok ()) {code : Status}
    (hrefused : rt.attach thread = (.error code, rt)) :
    Plays thread rt (way.perform h (some ctx) op input).run [.called .attach (.error code)]
      (.error (.attach code)) rt := by
  refine way.plays_of_prepare ?_
  have hanswered : (answer thread .attach).run.run rt = (.ok (.error code), rt) := by
    rw [run_attach, hrefused]
  unfold Handle.prepare
  rw [hchecked]
  exact Plays.error_bind (x := Context.attach) (.call hanswered rfl (.done rt _))

/-! ## Calls that are made -/

/-- What a call on a cache relies on: nothing is pending on the thread, and the references that it is
made with lead where they were made for. -/
structure Connects (h : Handle) (ctx : Context) (thread : ThreadId) (rt : Runtime)
    (store : StoreId) : Prop where
  cls : h.cls = .cache
  found : Found ctx.descriptors
  clear : rt.pending? thread = none
  target : Refers rt h.target (some (.cache store))
  through : Refers rt ctx.descriptors.interopCache (some (.cls ClassName.interopCache))

/-- A thread that attaches is noted, and nothing else. -/
theorem attach_eq_ok (hattaches : rt.attach thread = (.ok (), rt₁)) : rt₁ = rt.attachThread thread := by
  unfold Runtime.attach at hattaches
  split at hattaches
  · cases hattaches
  · split at hattaches
    · cases hattaches
    · cases hattaches
      rfl

theorem attachThread_eq (rt : Runtime) (thread : ThreadId) :
    rt.attachThread thread = { rt with attached := (rt.attachThread thread).attached } := by
  unfold Runtime.attachThread
  split <;> rfl

theorem Connects.attached (hconnects : Connects h ctx thread rt store) :
    Connects h ctx thread (rt.attachThread thread) store := by
  rw [attachThread_eq]
  exact { hconnects with }

theorem plays_prepare (hchecked : op.check h.cls shape = .ok ()) (hcarries : Carries input bytes)
    (hattaches : rt.attach thread = (.ok (), rt₁)) :
    Plays thread rt (h.prepare (some ctx) op shape input).run [.called .attach (.ok ())]
      (.ok (ctx, wordsOf op bytes)) rt₁ := by
  have hanswered : (answer thread .attach).run.run rt = (.ok (.ok ()), rt₁) := by
    rw [run_attach, hattaches]
  have hquiet : rt₁.outbox = rt.outbox := by
    rw [attach_eq_ok hattaches, attachThread_eq]
  have hattached : Plays thread rt Context.attach.run [.called .attach (.ok ())] (.ok ()) rt₁ :=
    .call hanswered hquiet (.done rt₁ _)
  unfold Handle.prepare
  rw [hchecked]
  refine hattached.ok_bind ?_
  rw [hcarries.wireArgs]
  exact .done rt₁ _

/-- Looking for a fault where there is none. -/
theorem plays_checkFault_clear (hclear : rt.pending? thread = none) :
    Plays thread rt ctx.checkFault.run [.called .exceptionCheck false] (.ok ()) rt := by
  have hchecked : Plays thread rt (Script.ask .exceptionCheck) [.called .exceptionCheck false]
    false rt :=
    .ask (run_exceptionCheck (congrArg Option.isSome hclear)) rfl
  exact hchecked.lift_bind (.done rt _)

/-- Looking for a fault where there is one: it is taken, told and thrown. -/
theorem plays_checkFault_pending (hfound : Found ctx.descriptors) (hsound : rt.refs.Sound)
    (hroom : rt.refs.next + 8 ≤ 2 ^ 64) (hpending : rt.pending? thread = some thrown) :
    ∃ events rt', Plays thread rt ctx.checkFault.run events
      (.error (.managedFault (faultOf thrown rt.faults.messageFaults))) rt' ∧
      Relieved rt thread ctx.describeFaults rt' := by
  obtain ⟨events, htaken⟩ := gives_takeFault hfound ctx.describeFaults hsound hroom hpending
  have hchecked : Plays thread rt (Script.ask .exceptionCheck) [.called .exceptionCheck true] true rt :=
    .ask (run_exceptionCheck (congrArg Option.isSome hpending)) rfl
  have htold := htaken.bind (f := fun fault => Script.tell fault >>= fun _ => pure fault)
    (.report (.done _ _))
  exact ⟨_, _, hchecked.lift_bind (htold.lift_bind (.done _ _)), relieved_taken ..⟩

section Asked

variable {rt₂ : Runtime} {events : List Event} {outcome : Except BridgeError Unit}
  (hprepared : Plays thread rt (h.prepare (some ctx) op way.shape input).run [.called .attach (.ok ())]
    (.ok (ctx, wordsOf op bytes)) rt₁)
  (hended : Plays thread rt₂ ctx.checkFault.run events outcome rt')
  (hquiet : rt₂.outbox = rt₁.outbox)
include hprepared hended hquiet

/-- A call that was answered ends as looking for a fault ends. -/
theorem arrives_inOp (hhere : way = .inOp) {value : Int32}
    (hcalled : (answer thread (.callInt h.target (h.dispatchClass ctx)
      ctx.descriptors.interopTargetInOp (wordsOf op bytes))).run.run rt₁ = (.ok value, rt₂)) :
    way.Arrives h ctx thread op input bytes rt (outcome.map fun _ => .word32 value) rt' := by
  subst hhere
  cases outcome with
  | ok _ =>
    exact ⟨value, _, Plays.ok_bind (x := h.inOp (some ctx) op input)
      (hprepared.ok_bind ((Plays.ask hcalled hquiet).lift_bind (hended.ok_bind (.done _ _))))
        (.done _ _)⟩
  | error e =>
    exact ⟨value, _, Plays.error_bind (x := h.inOp (some ctx) op input)
      (hprepared.ok_bind ((Plays.ask hcalled hquiet).lift_bind hended.error_bind))⟩

theorem arrives_inOutOp (hhere : way = .inOutOp) {value : Int64}
    (hcalled : (answer thread (.callLong h.target (h.dispatchClass ctx)
      ctx.descriptors.interopTargetInOutOp (wordsOf op bytes))).run.run rt₁ = (.ok value, rt₂)) :
    way.Arrives h ctx thread op input bytes rt (outcome.map fun _ => .word64 value.toUInt64) rt' := by
  subst hhere
  cases outcome with
  | ok _ =>
    exact ⟨value, _, Plays.ok_bind (x := h.inOutOp (some ctx) op input)
      (hprepared.ok_bind ((Plays.ask hcalled hquiet).lift_bind (hended.ok_bind (.done _ _))))
        (.done _ _)⟩
  | error e =>
    exact ⟨value, _, Plays.error_bind (x := h.inOutOp (some ctx) op input)
      (hprepared.ok_bind ((Plays.ask hcalled hquiet).lift_bind hended.error_bind))⟩

theorem arrives_inOutOpAsync {callback : Callback} {data : UInt64}
    (hhere : way = .inOutOpAsync callback data)
    (hcalled : (answer thread (.callVoid h.target (h.dispatchClass ctx)
      ctx.descriptors.interopTargetInOutOpAsync (wordsOf op bytes ++
        [.long (.callback callback), .long (.ofNat64 data)]))).run.run rt₁ = (.ok (), rt₂)) :
    way.Arrives h ctx thread op input bytes rt (outcome.map fun _ => .queued) rt' := by
  subst hhere
  cases outcome with
  | ok _ =>
    exact ⟨(), _, Plays.ok_bind (x := h.inOutOpAsync (some ctx) op input callback data)
      (hprepared.ok_bind ((Plays.ask hcalled hquiet).lift_bind hended)) (.done _ _)⟩
  | error e =>
    exact ⟨(), _, Plays.error_bind (x := h.inOutOpAsync (some ctx) op input callback data)
      (hprepared.ok_bind ((Plays.ask hcalled hquiet).lift_bind hended))⟩

end Asked

/-- A request that is executed at once, and what the method makes of the result. -/
theorem run_executeNow_map (hsupported : op.supports shape = true) (hsmall : bytes.length < 2 ^ 31)
    (f : Int64 → CallValue) :
    (Code.executeNow (some (.cache store)) (requestArgs op bytes) shape >>= fun result =>
        pure (f result) : Code CallValue).run.run rt =
      match rt.grid.execute op store bytes with
      | .ok (grid, result) => (.ok (f result), { rt with grid })
      | .error stop => (.error stop, rt) := by
  have hexecuted : (Code.executeNow (some (.cache store)) (requestArgs op bytes) shape).run.run
    rt = _ :=
    run_executeNow_request hsmall hsupported
  -- a value is converted, and an error passed on
  cases hdone : rt.grid.execute op store bytes with
  | ok after =>
    rw [hdone] at hexecuted
    rw [run_bind_of_ok hexecuted]
    rfl
  | error stop =>
    rw [hdone] at hexecuted
    rw [ExceptT.run_bind, StateT.run_bind, hexecuted]
    rfl

/-- The words of a request stand for its arguments, whatever else is alive. -/
theorem resolved_wordsOf (rt : Runtime) (op : Opcode) (bytes : List UInt8) :
    List.Forall₂ (Resolved rt) (wordsOf op bytes) (requestArgs op bytes) :=
  .cons rfl (.cons rfl (.cons rfl .nil))

section Arrivals

variable (hconnects : Connects h ctx thread rt store)
include hconnects

theorem Connects.check (hsupported : op.supports shape = true) : op.check h.cls shape = .ok () := by
  refine check_taken ?_ hsupported
  rw [hconnects.cls]
  cases op <;> rfl

/-- A method of targets is found, and a cache inherits it. -/
theorem Connects.method (spec : MethodSpec) (id : MethodId) (behaviour : Behaviour)
    (hlooked : (ClassName.interopTarget, spec, id) ∈ ctx.descriptors.looked)
    (hdoes : ∀ e ∈ methodTable, e.spec = spec → e.behaviour = behaviour) :
    ∃ entry, methodEntry? id = some entry ∧ entry.spec = spec ∧ entry.behaviour = behaviour ∧
      (Answering.checkClass entry (some (h.dispatchClass ctx))).run.run rt = (.ok (), rt) := by
  obtain ⟨entry, hmethod, hsame, hdoes, hinherits⟩ :=
    hconnects.found.method ClassName.interopTarget spec id behaviour hlooked hdoes
  refine ⟨entry, hmethod, hsame, hdoes, ?_⟩
  have hthrough : h.dispatchClass ctx = ctx.descriptors.interopCache := by
    unfold Handle.dispatchClass
    rw [hconnects.cls]
  rw [hthrough]
  exact Answering.run_checkClass hconnects.through (isSubclass_of_superclass (by decide) hinherits)

/-- A method that executes at once is found, and what its body does is what its request does to the
instances, the result told in the method's own type. -/
theorem Connects.executes {shape : Shape} (hsupported : op.supports shape = true)
    (hsmall : bytes.length < 2 ^ 31) (spec : MethodSpec) (id : MethodId) (behaviour : Behaviour)
    (hlooked : (ClassName.interopTarget, spec, id) ∈ ctx.descriptors.looked)
    (hdoes : ∀ e ∈ methodTable, e.spec = spec → e.behaviour = behaviour) (f : Int64 → CallValue)
    (hnow : Code.dispatch behaviour (some (.cache store)) (requestArgs op bytes) =
      Code.executeNow (some (.cache store)) (requestArgs op bytes) shape >>= fun result =>
        pure (f result)) :
    ∃ entry, methodEntry? id = some entry ∧ entry.spec = spec ∧
      (Answering.checkClass entry (some (h.dispatchClass ctx))).run.run rt = (.ok (), rt) ∧
      (Code.dispatch entry.behaviour (some (.cache store)) (requestArgs op bytes)).run.run rt =
        match rt.grid.execute op store bytes with
        | .ok (grid, result) => (.ok (f result), { rt with grid })
        | .error stop => (.error stop, rt) := by
  obtain ⟨entry, hmethod, hsame, hdoes, hthrough⟩ := hconnects.method spec id behaviour hlooked hdoes
  refine ⟨entry, hmethod, hsame, hthrough, ?_⟩
  rw [hdoes, hnow]
  exact run_executeNow_map hsupported hsmall f

variable (hsupported : op.supports way.shape = true) (hcarries : Carries input bytes)
  (hattaches : rt.attach thread = (.ok (), rt₁))
include hsupported hcarries hattaches

/-- **A call that waits for its result** comes back with it. -/
theorem arrives_result (hwaits : way.waits = true) {grid : Grid} {result : Int64}
    (hdone : rt.grid.execute op store bytes = .ok (grid, result)) :
    way.Arrives h ctx thread op input bytes rt (.ok (way.given result)) { rt₁ with grid } := by
  have hprepared : Plays thread rt (h.prepare (some ctx) op way.shape input).run _ _ rt₁ :=
    plays_prepare (hconnects.check hsupported) hcarries hattaches
  obtain rfl := attach_eq_ok hattaches
  have hattached := hconnects.attached
  have hresolved := resolved_wordsOf (rt.attachThread thread) op bytes
  have hdone : (rt.attachThread thread).grid.execute op store bytes = .ok (grid, result) := by
    rw [attachThread_eq]
    exact hdone
  have hended : Plays thread { rt.attachThread thread with grid } ctx.checkFault.run _ _ _ :=
    plays_checkFault_clear hattached.clear
  -- two ways wait for the result, each through a method of its own
  cases way with
  | inOp =>
    obtain ⟨entry, hmethod, hspec, hthrough, hran⟩ := hattached.executes hsupported hcarries.small
      Method.inOp ctx.descriptors.interopTargetInOp .targetInOp
      (by simp [Descriptors.looked]) (by decide) (fun result => .int result.toInt32) rfl
    rw [hdone] at hran
    exact arrives_inOp hprepared hended rfl rfl
      (run_callInt hattached.clear hmethod (by rw [hspec]; rfl) hattached.target hresolved hthrough
        hran)
  | inOutOp =>
    obtain ⟨entry, hmethod, hspec, hthrough, hran⟩ := hattached.executes hsupported hcarries.small
      Method.inOutOp ctx.descriptors.interopTargetInOutOp .targetInOutOp
      (by simp [Descriptors.looked]) (by decide) (fun result => .long result) rfl
    rw [hdone] at hran
    exact arrives_inOutOp hprepared hended rfl rfl
      (run_callLong hattached.clear hmethod (by rw [hspec]; rfl) hattached.target hresolved
        hthrough hran)
  | inOutOpAsync callback data => cases hwaits

/-- **A call that waits and whose operation throws** comes back with the fault, and the exception was
taken off the thread. -/
theorem arrives_thrown (hwaits : way.waits = true) (hsound : rt.refs.Sound)
    (hroom : rt.refs.next + 8 ≤ 2 ^ 64)
    (hstopped : rt.grid.execute op store bytes = .error (.thrown thrown)) :
    ∃ rt', way.Arrives h ctx thread op input bytes rt
        (.error (.managedFault (faultOf thrown rt.faults.messageFaults))) rt' ∧
      Relieved (rt₁.raise thread thrown) thread ctx.describeFaults rt' := by
  have hprepared : Plays thread rt (h.prepare (some ctx) op way.shape input).run _ _ rt₁ :=
    plays_prepare (hconnects.check hsupported) hcarries hattaches
  obtain rfl := attach_eq_ok hattaches
  have hattached := hconnects.attached
  have hresolved := resolved_wordsOf (rt.attachThread thread) op bytes
  have hsame : (rt.attachThread thread).refs = rt.refs ∧ (rt.attachThread thread).grid = rt.grid ∧
      (rt.attachThread thread).faults = rt.faults := by
    rw [attachThread_eq]
    exact ⟨rfl, rfl, rfl⟩
  obtain ⟨hrefs, hgrid, hfaults⟩ := hsame
  rw [← hrefs] at hsound hroom
  rw [← hgrid] at hstopped
  rw [← hfaults]
  -- what the method throws is pending when the check comes
  let raised := (rt.attachThread thread).raise thread thrown
  have hpending : raised.pending? thread = some thrown := (Runtime.pending?_raise ..).trans (if_pos rfl)
  have hsound : raised.refs.Sound := hsound
  obtain ⟨events, rt', hended, hrelieved⟩ :=
    plays_checkFault_pending hattached.found hsound hroom hpending
  refine ⟨rt', ?_, hrelieved⟩
  cases way with
  | inOp =>
    obtain ⟨entry, hmethod, hspec, hthrough, hran⟩ := hattached.executes hsupported hcarries.small
      Method.inOp ctx.descriptors.interopTargetInOp .targetInOp
      (by simp [Descriptors.looked]) (by decide) (fun result => .int result.toInt32) rfl
    rw [hstopped] at hran
    exact arrives_inOp hprepared hended rfl rfl (run_callInt_thrown hattached.clear hmethod
      (by rw [hspec]; rfl) hattached.target hresolved hthrough hran)
  | inOutOp =>
    obtain ⟨entry, hmethod, hspec, hthrough, hran⟩ := hattached.executes hsupported hcarries.small
      Method.inOutOp ctx.descriptors.interopTargetInOutOp .targetInOutOp
      (by simp [Descriptors.looked]) (by decide) (fun result => .long result) rfl
    rw [hstopped] at hran
    exact arrives_inOutOp hprepared hended rfl rfl (run_callLong_thrown hattached.clear hmethod
      (by rw [hspec]; rfl) hattached.target hresolved hthrough hran)
  | inOutOpAsync callback data => cases hwaits

/-- **A call that does not wait** is queued, whatever its request is. -/
theorem arrives_queued {callback : Callback} {data : UInt64}
    (hhere : way = .inOutOpAsync callback data) :
    way.Arrives h ctx thread op input bytes rt (.ok .queued) { rt₁ with
      tasks := rt₁.tasks ++ [⟨op, store, bytes, .callback callback, .ofNat64 data⟩] } := by
  have hprepared : Plays thread rt (h.prepare (some ctx) op way.shape input).run _ _ rt₁ :=
    plays_prepare (hconnects.check hsupported) hcarries hattaches
  have hup : rt.phase = .running := by
    unfold Runtime.attach at hattaches
    split at hattaches
    · cases hattaches
    · rename_i hup
      exact Decidable.not_not.mp hup
  obtain rfl := attach_eq_ok hattaches
  have hattached := hconnects.attached
  have hresolved : List.Forall₂ (Resolved (rt.attachThread thread))
      (wordsOf op bytes ++ [.long (.callback callback), .long (.ofNat64 data)])
      (requestArgs op bytes ++ [.long (.callback callback), .long (.ofNat64 data)]) :=
    List.rel_append (resolved_wordsOf ..) (.cons rfl (.cons rfl .nil))
  have hup : (rt.attachThread thread).phase = .running := by
    rw [attachThread_eq]
    exact hup
  obtain ⟨entry, hmethod, hspec, hdoes, hthrough⟩ := hattached.method Method.inOutOpAsync
    ctx.descriptors.interopTargetInOutOpAsync .targetInOutOpAsync (by simp [Descriptors.looked])
    (by decide)
  subst hhere
  -- one task more, and nothing else
  let queued : Runtime := { rt.attachThread thread with
    tasks := (rt.attachThread thread).tasks ++
      [⟨op, store, bytes, .callback callback, .ofNat64 data⟩] }
  have hclear : queued.pending? thread = none := hattached.clear
  have hran : (Code.dispatch entry.behaviour (some (.cache store)) (requestArgs op bytes ++
      [.long (.callback callback), .long (.ofNat64 data)])).run.run (rt.attachThread thread) =
        (.ok .void, queued) := by
    rw [hdoes]
    exact run_executeLater_request hcarries.small hsupported hup _ _
  have hcalled := run_callVoid hattached.clear hmethod (by rw [hspec]; rfl) hattached.target hresolved
    hthrough hran
  exact arrives_inOutOpAsync hprepared (plays_checkFault_clear hclear) rfl rfl hcalled

end Arrivals

end GridBridge.Bridge
