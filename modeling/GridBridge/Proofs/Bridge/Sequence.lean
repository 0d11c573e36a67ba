import GridBridge.Bridge.Instance
import GridBridge.Proofs.Bridge.Translation

/-!
# Sequence: what one operation leaves for the next

An operation that gives a value has read nothing and leaves nothing pending; one that gives an error
leaves what taking its fault left (`Careful`). The rules for `Careful` and `Recovers` take an operation
apart, and `nothing_carried_over` draws the conclusion for any number of operations in a row: as long
as no read raises, none of them sees a fault of one before it. `taken_fault_is_gone` puts this beside
the exact condition under which a fault is taken cleanly.
-/

namespace GridBridge.Bridge

open Protocol Seam Seam.Script

variable {message : MethodId} {w : Watch}

/-! ## Operations -/

/-- Nothing is pending, and nothing was misread or called too early on the way. -/
def Still (w w' : Watch) : Prop := w'.pending = false ∧ ∃ m n, w.Goes w' false false m n

/-- What is pending or was called too early is what a read left. -/
def Told (w w' : Watch) : Prop := ∃ q m n, w.Goes w' q (q || w'.pending) m n

/-- Where nothing went wrong nothing has to be told. -/
theorem Still.told {w w' : Watch} (h : Still w w') : Told w w' := by
  obtain ⟨hclear, m, n, hgoes⟩ := h
  exact ⟨false, m, n, by simpa [hclear] using hgoes⟩

/-- What comes after calls that nothing went wrong in counts for the whole. -/
theorem Still.after {w w' w'' : Watch} {m n : Nat} (h : Still w' w'')
    (hgoes : w.Goes w' false false m n) : Still w w'' := by
  obtain ⟨hclear, m', n', hgoes'⟩ := h
  exact ⟨hclear, _, _, hgoes.trans hgoes'⟩

/-- So does what was told. -/
theorem Told.after {w w' w'' : Watch} {m n : Nat} (h : Told w' w'')
    (hgoes : w.Goes w' false false m n) : Told w w'' := by
  obtain ⟨q, m', n', hgoes'⟩ := h
  exact ⟨q, _, _, by simpa using hgoes.trans hgoes'⟩

/-- A reference is given back after a fault was told. -/
theorem Told.deleted {w w' w'' : Watch} {n : Nat} (h : Told w w')
    (hgoes : w'.Goes w'' false false 0 n) (hsame : w''.pending = w'.pending) : Told w w'' := by
  obtain ⟨q, m, n', hgoes'⟩ := h
  exact ⟨q, _, _, by simpa [hsame] using hgoes'.trans hgoes⟩

/-- Whatever is pending at first: a value is given with nothing pending, an error with the fault
told. -/
def Recovers (message : MethodId) {α : Type} (op : Operation α) : Prop :=
  ∀ w, op.wp (watching message) (fun _ w' => Still w w') (fun _ w' => Told w w') w

/-- The same of an operation that starts with nothing pending. -/
def Careful (message : MethodId) {α : Type} (op : Operation α) : Prop :=
  ∀ w, w.pending = false →
    op.wp (watching message) (fun _ w' => Still w w') (fun _ w' => Told w w') w

section Rules

variable {α β : Type}

/-- An operation that starts after calls that nothing went wrong in. -/
theorem wp_after {op : Operation α} {w₁ : Watch} {m n : Nat} (hgoes : w.Goes w₁ false false m n)
    (h : op.wp (watching message) (fun _ w' => Still w₁ w') (fun _ w' => Told w₁ w') w₁) :
    op.wp (watching message) (fun _ w' => Still w w') (fun _ w' => Told w w') w₁ := by
  refine wp_mono h ?_
  intro outcome w₂ h
  cases outcome with
  | error e => exact Told.after h hgoes
  | ok value => exact Still.after h hgoes

/-- An operation goes on from a value that was given with nothing pending. -/
theorem wp_goOn {op : Operation α} {f : α → Operation β} (hfirst : op.wp (watching message)
      (fun _ w' => Still w w') (fun _ w' => Told w w') w) (hnext : ∀ value, Careful message (f value)) :
    (op >>= f).wp (watching message) (fun _ w' => Still w w') (fun _ w' => Told w w') w := by
  refine Operation.wp_bind.mpr (wp_mono hfirst ?_)
  intro outcome w₁ h
  cases outcome with
  | error e => exact h
  | ok value =>
    obtain ⟨hclear, m, n, hgoes⟩ := h
    exact wp_after hgoes (hnext value w₁ hclear)

/-- Careful operations in a row are careful. -/
theorem Careful.bind {op : Operation α} {f : α → Operation β} (hfirst : Careful message op)
    (hnext : ∀ value, Careful message (f value)) : Careful message (op >>= f) :=
  fun w hclear => wp_goOn (hfirst w hclear) hnext

/-- What recovers and goes on carefully recovers. -/
theorem Recovers.bind {op : Operation α} {f : α → Operation β} (hfirst : Recovers message op)
    (hnext : ∀ value, Careful message (f value)) : Recovers message (op >>= f) :=
  fun w => wp_goOn (hfirst w) hnext

theorem careful_pure (value : α) : Careful message (pure value : Operation α) :=
  fun _ hclear => ⟨hclear, 0, 0, .rfl⟩

/-- An error that no call led to is given with nothing pending. -/
theorem careful_throw (e : BridgeError) : Careful message (throw e : Operation α) :=
  fun _ hclear => Still.told ⟨hclear, 0, 0, .rfl⟩

/-- A check that makes no call is careful. -/
theorem careful_liftExcept (x : Except BridgeError α) :
    Careful message (liftExcept x : Operation α) := by
  cases x with
  | error e => exact careful_throw e
  | ok value => exact careful_pure value

/-- A call that reads nothing, then something that copes with whatever it raised. -/
theorem careful_call {request : Call} {f : request.Reply → Operation α}
    (hreads : request.reads = false) (hnext : ∀ reply, Recovers message (f reply)) :
    Careful message (liftM (ask request) >>= f) := by
  intro w hclear
  refine Operation.wp_lift_bind.mpr (wp_watch ?_)
  intro reply w₁ _ hgoes
  rw [hreads, hclear, Bool.and_false, Bool.false_and, Bool.false_and] at hgoes
  exact wp_after hgoes (hnext reply w₁)

/-- A call that is neither managed nor a read, whatever is pending. -/
theorem recovers_call {request : Call} {f : request.Reply → Operation α}
    (hmanaged : request.isManaged = false) (hreads : request.reads = false)
    (hnext : ∀ reply, Recovers message (f reply)) :
    Recovers message (liftM (ask request) >>= f) := by
  intro w
  refine Operation.wp_lift_bind.mpr (wp_watch ?_)
  intro reply w₁ _ hgoes
  rw [hmanaged, hreads, Bool.false_and, Bool.false_and, Bool.false_and] at hgoes
  exact wp_after hgoes (hnext reply w₁)

/-- Looks for an exception. If there is one it is taken and thrown, else this goes on. -/
theorem recovers_check {ctx : Context} (hother : ctx.descriptors.classGetName ≠
      ctx.descriptors.throwableGetMessage) {error : ManagedFault → BridgeError}
    {f : Bool → Operation α}
    (hraised : f true = do
      let fault ← ctx.fault
      throw (error fault))
    (hclear : Careful ctx.descriptors.throwableGetMessage (f false)) :
    Recovers ctx.descriptors.throwableGetMessage (liftM (ask .exceptionCheck) >>= f) := by
  intro w
  refine Operation.wp_lift_bind.mpr (wp_watch ?_)
  intro pending w₁ hinBand hgoes
  have hgoes : w.Goes w₁ false false 0 1 := by simpa using hgoes
  have hsame : w₁.pending = w.pending := hinBand.leaves
  have htold : pending = w.pending := hinBand.truthful
  refine wp_after hgoes ?_
  -- the check told the truth, so this is what is pending
  cases pending with
  | false => exact hclear w₁ (hsame.trans htold.symm)
  | true =>
    rw [hraised]
    refine Operation.wp_lift_bind.mpr (wp_bind.mpr (wp_mono (watch_takeFault hother) ?_))
    intro fault w₂ htaken
    obtain ⟨q, m, _, hgoes⟩ := htaken
    -- taking the fault makes 27 calls at most
    exact ⟨q, m, 27, hgoes⟩

end Rules

/-- To attach reads nothing, and leaves nothing pending where nothing was. -/
theorem careful_attach : Careful message Context.attach := by
  intro w hclear
  refine Operation.wp_lift_bind.mpr (wp_watch ?_)
  intro reply w₁ hinBand hgoes
  have hclear₁ : w₁.pending = false := by
    cases hraised : w₁.pending with
    | false => rfl
    | true => exact (hinBand.leaves hraised).symm.trans hclear
  have hstill : Still w w₁ := ⟨hclear₁, 0, 1, by simpa using hgoes⟩
  cases reply with
  | ok _ => exact hstill
  | error code => exact hstill.told

section Context

variable {α : Type} {ctx : Context}
  (hother : ctx.descriptors.classGetName ≠ ctx.descriptors.throwableGetMessage)
include hother

/-- A check after a call takes what the call left. -/
theorem recovers_checkFault : Recovers ctx.descriptors.throwableGetMessage ctx.checkFault :=
  recovers_check hother rfl (careful_pure ())

/-- A string that came was made without an exception, and for one that did not the check decides. -/
theorem careful_newString (text : String) :
    Careful ctx.descriptors.throwableGetMessage (ctx.newString text) := by
  unfold Context.newString
  split
  · exact careful_throw _
  · intro w hclear
    refine Operation.wp_lift_bind.mpr (wp_watch ?_)
    intro str w₁ hinBand hgoes
    have hgoes : w.Goes w₁ false false 0 1 := by simpa using hgoes
    cases hnull : str.isNull with
    | false =>
      have hclear₁ : w₁.pending = false :=
        clear_of_object (fun hraised => hinBand.noLocal hraised nofun) hnull
      exact ⟨hclear₁, 0, 1, hgoes⟩
    | true => exact wp_after hgoes (recovers_check hother rfl (careful_throw _) w₁)

/-- A name that is not given makes no call. -/
theorem careful_nameString (name : Option String) :
    Careful ctx.descriptors.throwableGetMessage (ctx.nameString name) := by
  cases name with
  | none => exact careful_pure Ref.null
  | some name => exact careful_newString hother name

/-- What a start left is taken before it is asked what the start gave. -/
theorem recovers_requireStarted (found : Ref) :
    Recovers ctx.descriptors.throwableGetMessage (Instance.requireStarted ctx found) := by
  unfold Instance.requireStarted
  refine recovers_check hother rfl ?_
  cases hnull : found.isNull with
  | true => exact careful_throw _
  | false => exact careful_pure ()

/-- A promotion that fails leaves an exception or none, and the check after it tells them apart. -/
theorem careful_promote (found : Ref) (cls : TargetClass) :
    Careful ctx.descriptors.throwableGetMessage (Handle.promote ctx found cls) := by
  unfold Handle.promote
  split
  · exact careful_throw _
  · intro w hclear
    refine Operation.wp_lift_bind.mpr (wp_watch ?_)
    intro target w₁ hinBand hmade
    have hmade : w.Goes w₁ false false 0 1 := by simpa using hmade
    refine Operation.wp_lift_bind.mpr (wp_watch ?_)
    intro _ w₂ hinBand₂ hdeleted
    have hdeleted : w₁.Goes w₂ false false 0 1 := by simpa using hdeleted
    -- giving the local reference back does not change what is pending
    have hsame : w₂.pending = w₁.pending := hinBand₂.leaves
    have hgoes := hmade.trans hdeleted
    cases hnull : target.isNull with
    | false =>
      have hclear₁ : w₁.pending = false := clear_of_object hinBand.noGlobal hnull
      exact ⟨hsame.trans hclear₁, _, _, hgoes⟩
    | true => exact wp_after hgoes (recovers_check hother rfl (careful_throw _) w₂)

/-- To enter an instance is one managed call, its check, and a promotion. -/
theorem careful_enter (found : Ref) (name : String) :
    Careful ctx.descriptors.throwableGetMessage (Instance.enter ctx found name) := by
  unfold Instance.enter
  refine careful_call rfl fun processor => ?_
  refine recovers_call rfl rfl fun _ => ?_
  refine (recovers_requireStarted hother processor).bind fun _ => ?_
  exact (careful_promote hother processor .processor).bind fun handle => careful_pure _

/-- A look-up is one managed call with its check, and the entry. -/
theorem careful_find (name : String) :
    Careful ctx.descriptors.throwableGetMessage (Instance.find ctx name) := by
  unfold Instance.find
  refine careful_attach.bind fun _ => ?_
  refine (careful_nameString hother _).bind fun nameRef => ?_
  refine careful_call rfl fun found => ?_
  refine recovers_call rfl rfl fun _ => ?_
  exact (recovers_requireStarted hother found).bind fun _ => careful_enter hother found name

/-- A start is one managed call with its check, and the entry. -/
theorem careful_start (configPath name : String) :
    Careful ctx.descriptors.throwableGetMessage (Instance.start ctx configPath name) := by
  unfold Instance.start
  refine careful_attach.bind fun _ => ?_
  refine (careful_newString hother configPath).bind fun config => ?_
  refine Careful.bind ?_ fun nameRef => ?_
  · intro w hclear
    refine Operation.wp_tryCatch.mpr (wp_mono (careful_nameString hother _ w hclear) ?_)
    intro outcome w₁ h
    cases outcome with
    | ok nameRef => exact h
    | error e =>
      -- the first string is given back before the error of the second goes on
      refine Operation.wp_lift_bind.mpr (wp_watch ?_)
      intro _ w₂ hinBand hdeleted
      have hdeleted : w₁.Goes w₂ false false 0 1 := by simpa using hdeleted
      exact Told.deleted h hdeleted hinBand.leaves
  · refine careful_call rfl fun found => ?_
    refine recovers_call rfl rfl fun _ => ?_
    refine recovers_call rfl rfl fun _ => ?_
    exact (recovers_requireStarted hother found).bind fun _ => careful_enter hother found name

/-- A cache is one managed call with its check, and a promotion. -/
theorem careful_cache (i : Instance) (name : Option String) :
    Careful ctx.descriptors.throwableGetMessage (i.cache (some ctx) name) := by
  simp only [Instance.cache, Handle.requireContext, pure_bind]
  refine careful_attach.bind fun _ => ?_
  refine (careful_nameString hother name).bind fun nameRef => ?_
  refine careful_call rfl fun found => ?_
  refine recovers_call rfl rfl fun _ => ?_
  refine (recovers_checkFault hother).bind fun _ => ?_
  split
  · exact careful_throw _
  · exact (careful_promote hother found .cache).bind fun handle => careful_pure _

variable (h : Handle) (op : Opcode) (input : Codec.Writer)

omit hother in
/-- A prepared call is made with the context that it was prepared for. -/
theorem careful_prepared {shape : Shape} {f : Context × List Arg → Operation α}
    (hnext : ∀ args, Careful message (f (ctx, args))) :
    Careful message (h.prepare (some ctx) op shape input >>= f) := by
  have hregrouped : h.prepare (some ctx) op shape input >>= f = (do
      liftExcept (op.check h.cls shape)
      Context.attach
      let args ← liftExcept (Handle.wireArgs op input)
      f (ctx, args)) := by
    simp [Handle.prepare, Handle.requireContext]
  rw [hregrouped]
  refine (careful_liftExcept _).bind fun _ => careful_attach.bind fun _ => ?_
  exact (careful_liftExcept _).bind hnext

/-- A call that waits for 32 bits is followed by its check. -/
theorem careful_inOp :
    Careful ctx.descriptors.throwableGetMessage (h.inOp (some ctx) op input) := by
  refine careful_prepared h op input fun args => careful_call rfl fun reply => ?_
  exact (recovers_checkFault hother).bind fun _ => careful_pure reply

/-- A call that waits for 64 bits is followed by its check. -/
theorem careful_inOutOp :
    Careful ctx.descriptors.throwableGetMessage (h.inOutOp (some ctx) op input) := by
  refine careful_prepared h op input fun args => careful_call rfl fun reply => ?_
  exact (recovers_checkFault hother).bind fun _ => careful_pure reply.toUInt64

/-- A call that is completed later is followed by its check. -/
theorem careful_inOutOpAsync (callback : Callback) (data : UInt64) :
    Careful ctx.descriptors.throwableGetMessage
      (h.inOutOpAsync (some ctx) op input callback data) :=
  careful_prepared h op input fun _ => careful_call rfl fun _ => recovers_checkFault hother

omit hother in
/-- Giving a handle back raises nothing and looks for nothing. -/
theorem careful_release : Careful message (liftM (h.release (some ctx)) : Operation Bool) := by
  intro w hclear
  refine Operation.wp_lift.mpr (wp_bind.mpr (wp_watch ?_))
  intro reply w₁ hinBand hgoes
  have hclear₁ : w₁.pending = false := by
    cases hraised : w₁.pending with
    | false => rfl
    | true => exact (hinBand.leaves hraised).symm.trans hclear
  have hgoes : w.Goes w₁ false false 0 1 := by simpa using hgoes
  cases reply with
  | error code => exact ⟨hclear₁, 0, 1, hgoes⟩
  | ok _ =>
    refine wp_bind.mpr (wp_watch ?_)
    intro _ w₂ hinBand₂ hdeleted
    have hdeleted : w₁.Goes w₂ false false 0 1 := by simpa using hdeleted
    have hsame : w₂.pending = w₁.pending := hinBand₂.leaves
    exact ⟨hsame.trans hclear₁, _, _, hgoes.trans hdeleted⟩

end Context

/-! ## One operation after another -/

/-- The operations on a started runtime. -/
inductive Request where
  | start (configPath name : String)
  | find (name : String)
  | cache (i : Instance) (name : Option String)
  | inOp (h : Handle) (op : Opcode) (input : Codec.Writer)
  | inOutOp (h : Handle) (op : Opcode) (input : Codec.Writer)
  | inOutOpAsync (h : Handle) (op : Opcode) (input : Codec.Writer) (callback : Callback)
      (data : UInt64)
  | release (h : Handle)

/-- Performs an operation, whatever it gives. -/
def Request.perform (ctx : Context) : Request → Operation Unit
  | .start configPath name => do let _ ← Instance.start ctx configPath name
  | .find name => do let _ ← Instance.find ctx name
  | .cache i name => do let _ ← i.cache (some ctx) name
  | .inOp h op input => do let _ ← h.inOp (some ctx) op input
  | .inOutOp h op input => do let _ ← h.inOutOp (some ctx) op input
  | .inOutOpAsync h op input callback data => h.inOutOpAsync (some ctx) op input callback data
  | .release h => do let _ ← h.release (some ctx)

/-- Performs operations in a row, those that fail included. -/
def performAll (ctx : Context) : List Request → Script Unit
  | [] => pure ()
  | request :: rest => do
    let _ ← (request.perform ctx).run
    performAll ctx rest

section Requests

variable {ctx : Context}
  (hother : ctx.descriptors.classGetName ≠ ctx.descriptors.throwableGetMessage)
include hother

/-- Every operation on a started runtime is careful. -/
theorem Request.careful (request : Request) :
    Careful ctx.descriptors.throwableGetMessage (request.perform ctx) := by
  cases request with
  | start configPath name =>
    exact (careful_start hother configPath name).bind fun _ => careful_pure ()
  | find name => exact (careful_find hother name).bind fun _ => careful_pure ()
  | cache i name => exact (careful_cache hother i name).bind fun _ => careful_pure ()
  | inOp h op input => exact (careful_inOp hother h op input).bind fun _ => careful_pure ()
  | inOutOp h op input => exact (careful_inOutOp hother h op input).bind fun _ => careful_pure ()
  | inOutOpAsync h op input callback data =>
    exact careful_inOutOpAsync hother h op input callback data
  | release h => exact (careful_release h).bind fun _ => careful_pure ()

/-- An operation that starts clean is not spoiled by any other call than a misread. -/
theorem Request.clean (request : Request) (hclear : w.pending = false) (hearly : w.early = false) :
    (request.perform ctx).run.wp (watching ctx.descriptors.throwableGetMessage)
      (fun _ w' => w'.misread = false → w'.pending = false ∧ w'.early = false) w := by
  refine wp_mono (request.careful hother w hclear) ?_
  intro outcome w₁ h hread
  have htold : Told w w₁ := by
    cases outcome with
    | error e => exact h
    | ok value => exact Still.told h
  obtain ⟨q, m, n, hgoes⟩ := htold
  -- without a misread the read that the fault was taken with left nothing either
  have hmisread := hgoes.misread
  rw [hread, eq_comm, Bool.or_eq_false_iff, Bool.or_eq_false_iff] at hmisread
  refine ⟨hmisread.2.2, ?_⟩
  rw [hgoes.early, hearly, hmisread.2.1, Bool.or_false]

/-- Any number of operations, by induction on how many are left. -/
theorem wp_performAll (requests : List Request) (hclean : w.misread = false →
      w.pending = false ∧ w.early = false) :
    (performAll ctx requests).wp (watching ctx.descriptors.throwableGetMessage)
      (fun _ w' => w'.misread = false → w'.pending = false ∧ w'.early = false) w := by
  induction requests generalizing w with
  | nil => exact hclean
  | cons request rest ih =>
    refine wp_bind.mpr ?_
    cases hread : w.misread with
    | false =>
      obtain ⟨hclear, hearly⟩ := hclean hread
      exact wp_mono (request.clean hother hclear hearly) fun _ _ => ih
    -- something was misread before, and nothing takes that back
    | true =>
      refine wp_mono (wp_misread hread) ?_
      intro _ w₁ hmisread
      exact ih fun hread => absurd (hmisread.symm.trans hread) (by decide)

/-- As long as no read of a class or a string raises: however many operations were performed and
whatever faults they told, nothing is pending for the next one, and no managed method was called
with an exception pending. -/
theorem nothing_carried_over {requests : List Request} {events : List Event}
    (hfollows : (performAll ctx requests).Follows events ())
    (hrun : (watching ctx.descriptors.throwableGetMessage).Run {} events w)
    (hread : w.misread = false) : w.pending = false ∧ w.early = false :=
  (wp_follows (wp_performAll hother requests fun _ => ⟨rfl, rfl⟩) hfollows hrun).1 hread

end Requests

/-! ## A fault that was taken is gone -/

/-- Whatever fails in band, and however often in a row. Taking a fault ends after at most 27 calls, at
most `maxFaultAttempts` of them of the message accessor, and it ends with nothing pending and without
a managed method called too early exactly when no read of a class or a string raised. And as long as
none raises, operations may follow one another, whatever faults they tell: nothing is pending for the
next one, and no managed method was called with an exception pending. -/
theorem taken_fault_is_gone {ctx : Context}
    (hother : ctx.descriptors.classGetName ≠ ctx.descriptors.throwableGetMessage) :
    (∀ {describe pending : Bool} {events : List Event} {fault : ManagedFault} {w : Watch},
      (takeFault ctx.descriptors describe).Follows events fault →
      (watching ctx.descriptors.throwableGetMessage).Run { pending } events w →
        w.messages ≤ maxFaultAttempts ∧ w.length ≤ 27 ∧
          (w.pending = false ∧ w.early = false ↔ w.misread = false)) ∧
    (∀ {requests : List Request} {events : List Event} {w : Watch},
      (performAll ctx requests).Follows events () →
      (watching ctx.descriptors.throwableGetMessage).Run {} events w →
        w.misread = false → w.pending = false ∧ w.early = false) :=
  ⟨fun hfollows hrun => takeFault_clean_iff hother hfollows hrun,
    fun hfollows hrun hread => nothing_carried_over hother hfollows hrun hread⟩

/-- The accessor of the class name raises, which is cleared, and the message is read. -/
def nameRaised : List Event := [
  .called .exceptionCheck true,
  .called .exceptionOccurred ⟨17⟩,
  .called .exceptionClear (),
  .called (.getObjectClass ⟨17⟩) ⟨18⟩,
  .called (.callObject ⟨18⟩ ⟨3⟩ []) .null,
  .called (.deleteLocalRef ⟨18⟩) (),
  .called .exceptionCheck true,
  .called .exceptionClear (),
  .called (.callObject ⟨17⟩ ⟨2⟩ []) ⟨19⟩,
  .called (.deleteLocalRef ⟨17⟩) (),
  .called .exceptionCheck false,
  .called (.getString ⟨19⟩) (some "gone"),
  .called (.deleteLocalRef ⟨19⟩) ()]

/-- A cache is looked up twice. The first look-up raises, and so does the accessor of the class name
when that fault is taken; the second one gives the cache. -/
def lookedUpTwice : List Event :=
  [.called .attach (.ok ()),
    .called (.callObject ⟨16⟩ ⟨8⟩ [.object .null]) .null,
    .called (.deleteLocalRef .null) (),
    .called .exceptionCheck true] ++ nameRaised ++
  [.reported { message := "gone" },
    .called .attach (.ok ()),
    .called (.callObject ⟨16⟩ ⟨8⟩ [.object .null]) ⟨20⟩,
    .called (.deleteLocalRef .null) (),
    .called .exceptionCheck false,
    .called (.newGlobalRef ⟨20⟩) ⟨21⟩,
    .called (.deleteLocalRef ⟨20⟩) ()]

/-- The fault is taken in thirteen calls, and the look-up after it finds nothing pending. -/
theorem nameRaised_is_gone : ∃ w w' : Watch,
    (takeFault numbered false).Follows nameRaised { message := "gone" } ∧
    (watching ⟨2⟩).Run { pending := true } nameRaised w ∧
    (w.messages ≤ maxFaultAttempts ∧ w.pending = false ∧ w.early = false) ∧
    (performAll { descriptors := numbered }
      (List.replicate 2 (.cache { handle := ⟨⟨16⟩, .processor⟩, name := "i" } none))).Follows
        lookedUpTwice () ∧
    (watching ⟨2⟩).Run {} lookedUpTwice w' ∧ w'.pending = false ∧ w'.early = false := by
  have hfollows : (takeFault numbered false).Follows nameRaised { message := "gone" } :=
    .call _ (.call _ (.call _ (.call _ (.call _ (.call _ (.call _ (.call _ (.call _ (.call _
      (.call _ (.call _ (.call _ (.done _)))))))))))))
  have hrun : (watching ⟨2⟩).Run { pending := true } nameRaised { messages := 1, length := 13 } :=
    .raised rfl rfl (.inr rfl) rfl <| .raised rfl trivial (.inl rfl) rfl <|
    .quiet rfl trivial <| .quiet trivial trivial <|
    -- the accessor of the name raises
    .raised trivial trivial (.inr rfl) rfl <| .raised rfl trivial (.inr rfl) rfl <|
    .raised rfl rfl (.inr rfl) rfl <| .quiet rfl trivial <|
    .quiet trivial trivial <| .quiet rfl trivial <| .quiet rfl rfl <|
    .quiet trivial trivial <| .quiet rfl trivial <| .done _
  have hfollows' : (performAll { descriptors := numbered }
      (List.replicate 2 (.cache { handle := ⟨⟨16⟩, .processor⟩, name := "i" } none))).Follows
        lookedUpTwice () :=
    .call _ (.call _ (.call _ (.call _ (.call _ (.call _ (.call _ (.call _ (.call _ (.call _ (.call _
      (.call _ (.call _ (.call _ (.call _ (.call _ (.call _ (.report (.call _ (.call _ (.call _
      (.call _ (.call _ (.call _ (.done _))))))))))))))))))))))))
  have hrun' : (watching ⟨2⟩).Run {} lookedUpTwice { messages := 1, length := 23 } :=
    .quiet nofun trivial <|
    -- the look-up raises
    .raised trivial trivial (.inr rfl) rfl <| .raised rfl trivial (.inr rfl) rfl <|
    .raised rfl rfl (.inr rfl) rfl <| .raised rfl rfl (.inr rfl) rfl <|
    .raised rfl trivial (.inl rfl) rfl <| .quiet rfl trivial <| .quiet trivial trivial <|
    .raised trivial trivial (.inr rfl) rfl <| .raised rfl trivial (.inr rfl) rfl <|
    .raised rfl rfl (.inr rfl) rfl <| .quiet rfl trivial <|
    .quiet trivial trivial <| .quiet rfl trivial <| .quiet rfl rfl <|
    .quiet trivial trivial <| .quiet rfl trivial <| .reported <|
    -- and the next one does not
    .quiet nofun trivial <| .quiet trivial trivial <| .quiet rfl trivial <| .quiet rfl rfl <|
    .quiet trivial trivial <| .quiet rfl trivial <| .done _
  have hother : ({ descriptors := numbered } : Context).descriptors.classGetName ≠
      ({ descriptors := numbered } : Context).descriptors.throwableGetMessage := by decide
  obtain ⟨htaken, hnext⟩ := taken_fault_is_gone hother
  obtain ⟨hmessages, _, hclean⟩ := htaken hfollows hrun
  exact ⟨_, _, hfollows, hrun, ⟨hmessages, hclean.mpr rfl⟩, hfollows', hrun', hnext hfollows' hrun' rfl⟩

end GridBridge.Bridge
