import GridBridge.Proofs.Bridge.Operations
import GridBridge.Proofs.Bridge.Translation
import GridBridge.Proofs.Seam.Makes
import GridBridge.Proofs.Seam.Scope

/-!
# Exchanges: what an operation keeps

An **`Exchange`** is one operation on a started runtime, with everything it is given. What it may use
of its surroundings, the class references of its context and the target of its handle, is **`lent`** to
it.

`Exchange.wp_perform` gathers the specifications of the operations: whatever happens, no local
reference is left, and the only durable reference that is left is the one that the handle in the result
owns. **`Exchange.nothing_leaks`** says the same of the calls themselves.
-/

namespace GridBridge.Bridge

open Protocol Seam Seam.Script

/-- One operation on a started runtime. Instances are opened on a context; caches and calls on handles
get the context as it is then, or none. -/
inductive Exchange where
  | start (ctx : Context) (configPath name : String)
  | find (ctx : Context) (name : String)
  | cache (current : Option Context) (i : Instance) (name : Option String)
  | inOp (current : Option Context) (h : Handle) (op : Opcode) (input : Codec.Writer)
  | inOutOp (current : Option Context) (h : Handle) (op : Opcode) (input : Codec.Writer)
  | inOutOpAsync (current : Option Context) (h : Handle) (op : Opcode) (input : Codec.Writer)
      (callback : Callback) (data : UInt64)

namespace Exchange

/-- The context that the operation is performed on, if there is one. -/
def context? : Exchange → Option Context
  | .start ctx _ _ | .find ctx _ => some ctx
  | .cache current _ _ | .inOp current _ _ _ | .inOutOp current _ _ _
  | .inOutOpAsync current _ _ _ _ _ => current

/-- The target that the operation calls, if it is one on a handle. -/
def target? : Exchange → Option Ref
  | .start .. | .find .. => none
  | .cache _ i _ => some i.handle.target
  | .inOp _ h _ _ | .inOutOp _ h _ _ | .inOutOpAsync _ h _ _ _ _ => some h.target

/-- The references that the operation may use without having been handed them. -/
def lent (x : Exchange) : List Ref :=
  x.context?.elim [] (·.descriptors.classes) ++ x.target?.toList

/-- Performs the operation. Its value is the handle that it opened, if it opens one. -/
def perform : Exchange → Operation (Option Handle)
  | .start ctx configPath name => do return some (← Instance.start ctx configPath name).handle
  | .find ctx name => do return some (← Instance.find ctx name).handle
  | .cache current i name => do return some (← i.cache current name).handle
  | .inOp current h op input => do
    let _ ← h.inOp current op input
    return none
  | .inOutOp current h op input => do
    let _ ← h.inOutOp current op input
    return none
  | .inOutOpAsync current h op input callback data => do
    h.inOutOpAsync current op input callback data
    return none

end Exchange

/-! ## No durable reference is given back -/

/-- The script makes everyday calls, gives no durable reference back and tells of no fault. -/
def Reads {α : Type} (s : Script α) : Prop := s.Makes (·.keeps = true) fun _ => False

/-- The script makes everyday calls and gives no durable reference back. -/
def Keeps {α : Type} (s : Script α) : Prop := s.Makes (·.keeps = true) fun _ => True

/-- To tell of no fault is more than is asked. -/
theorem Reads.keeps {α : Type} {s : Script α} (h : Reads s) : Keeps s := Makes.mono h nofun

/-- An everyday call gives no durable reference back. -/
theorem lostGlobal_of_keeps {request : Call} (h : request.keeps = true) :
    request.lostGlobal = .null := by
  cases request <;> first | rfl | cases h

/-- Nor do the events of such a script. -/
theorem Keeps.globalsBack {α : Type} {s : Script α} {events : List Event} {value : α} (h : Keeps s)
    (hfollows : s.Follows events value) : globalsBack events = 0 := by
  refine Multiset.eq_zero_of_forall_notMem fun r hr => ?_
  obtain ⟨hobject, e, he, hgiven⟩ := mem_globalsBack.mp hr
  -- each event is one of the calls that the script makes, or a report
  have hnothing : e.lostGlobal = .null := by
    cases e with
    | called request reply => exact lostGlobal_of_keeps (h.events hfollows _ he)
    | reported fault => rfl
  exact absurd hobject (hgiven ▸ hnothing ▸ nofun)

/-- What looks at an exception gives no durable reference back. -/
theorem reads_of_looking {α : Type} {s : Script α} {accessors : List MethodId}
    (h : s.Makes (Looking accessors) fun _ => False) : Reads s := by
  refine h.mono_calls fun request hlooks => ?_
  cases request <;> first | rfl | exact hlooks.elim

/-- Looks for an exception; if there is one, it is taken and thrown. -/
theorem keeps_check {α : Type} {ctx : Context} {error : ManagedFault → BridgeError}
    {f : Bool → Operation α}
    (hraised : f true = do
      let fault ← ctx.fault
      throw (error fault))
    (hclear : Keeps (f false).run) : Keeps (liftM (ask .exceptionCheck) >>= f).run := by
  refine .ask_bind rfl fun pending => ?_
  cases pending with
  | true =>
    rw [hraised]
    refine .lift_bind ?_ fun fault => .throw _
    have hlooks := reads_of_looking (looking_takeFault ctx.descriptors ctx.describeFaults)
    exact .bind hlooks.keeps fun fault => .bind (.tell trivial) fun _ => .pure fault
  | false => exact hclear

section Operations

variable (ctx : Context)

/-- A check after a call reads and tells what it finds. -/
theorem keeps_checkFault : Keeps ctx.checkFault.run := keeps_check rfl (.pure _)

/-- To attach a thread involves no reference. -/
theorem keeps_attach : Keeps Context.attach.run := by
  refine .ask_bind rfl fun outcome => ?_
  cases outcome with
  | ok _ => exact .pure _
  | error code => exact .throw _

/-- A string that is made is a local reference. -/
theorem keeps_newString (text : String) : Keeps (ctx.newString text).run := by
  unfold Context.newString
  split
  · exact .throw _
  · refine .ask_bind rfl fun str => ?_
    cases str.isNull with
    | false => exact .pure _
    | true => exact keeps_check rfl (.throw _)

/-- A name that is given is made into a string, and one that is not is the null reference. -/
theorem keeps_nameString (name : Option String) : Keeps (ctx.nameString name).run := by
  cases name with
  | none => exact .pure _
  | some name => exact keeps_newString ctx name

/-- A durable reference is made here, and a local one given back. -/
theorem keeps_promote (found : Ref) (cls : TargetClass) : Keeps (Handle.promote ctx found cls).run := by
  unfold Handle.promote
  split
  · exact .throw _
  · refine .ask_bind rfl fun target => .ask_bind rfl fun _ => ?_
    cases target.isNull with
    | false => exact .pure _
    | true => exact keeps_check rfl (.throw _)

/-- What a start gave is checked for an exception and for null. -/
theorem keeps_requireStarted (found : Ref) : Keeps (Instance.requireStarted ctx found).run := by
  refine keeps_check rfl ?_
  cases found.isNull with
  | false => exact .pure _
  | true => exact .throw _

/-- To enter an instance is to ask for its processor and to promote that. -/
theorem keeps_enter (found : Ref) (name : String) : Keeps (Instance.enter ctx found name).run := by
  refine .ask_bind rfl fun processor => .ask_bind rfl fun _ => ?_
  refine .run_bind (keeps_requireStarted ctx processor) fun _ => ?_
  exact .run_bind (keeps_promote ctx processor .processor) fun _ => .pure _

/-- A start makes two strings and asks for the instance. -/
theorem keeps_start (configPath name : String) : Keeps (Instance.start ctx configPath name).run := by
  refine .run_bind keeps_attach fun _ => .run_bind (keeps_newString ctx configPath) fun config => ?_
  refine Makes.run_bind ?_ fun nameRef => ?_
  · -- the first string is given back if the second fails
    refine Makes.bind (keeps_nameString ctx (Instance.wireName name)) fun outcome => ?_
    cases outcome with
    | ok nameRef => exact .pure _
    | error e => exact .ask_bind rfl fun _ => .throw e
  · refine .ask_bind rfl fun found => .ask_bind rfl fun _ => ?_
    refine .ask_bind rfl fun _ => ?_
    exact .run_bind (keeps_requireStarted ctx found) fun _ => keeps_enter ctx found name

/-- A look-up makes one string and asks for the instance. -/
theorem keeps_find (name : String) : Keeps (Instance.find ctx name).run := by
  refine .run_bind keeps_attach fun _ => .run_bind (keeps_nameString ctx _) fun nameRef => ?_
  refine .ask_bind rfl fun found => .ask_bind rfl fun _ => ?_
  exact .run_bind (keeps_requireStarted ctx found) fun _ => keeps_enter ctx found name

variable (current : Option Context)

/-- To require a context makes no call. -/
theorem keeps_requireContext : Keeps (Handle.requireContext current).run := by
  cases current with
  | none => exact .throw _
  | some ctx => exact .pure _

/-- A cache is asked for by name and promoted. -/
theorem keeps_cache (i : Instance) (name : Option String) : Keeps (i.cache current name).run := by
  refine .run_bind (keeps_requireContext current) fun ctx => .run_bind keeps_attach fun _ => ?_
  refine .run_bind (keeps_nameString ctx name) fun nameRef => ?_
  refine .ask_bind rfl fun found => .ask_bind rfl fun _ => ?_
  refine .run_bind (keeps_checkFault ctx) fun _ => ?_
  cases found.isNull with
  | true => exact .throw _
  | false => exact .run_bind (keeps_promote ctx found .cache) fun _ => .pure _

variable (h : Handle) (op : Opcode) (input : Codec.Writer)

/-- To prepare a call is to attach and to check its arguments. -/
theorem keeps_prepare (shape : Shape) : Keeps (h.prepare current op shape input).run := by
  refine .run_bind (.liftExcept _) fun _ => .run_bind (keeps_requireContext current) fun ctx => ?_
  refine .run_bind keeps_attach fun _ => ?_
  exact .run_bind (.liftExcept _) fun _ => .pure _

/-- A call that waits for 32 bits. -/
theorem keeps_inOp : Keeps (h.inOp current op input).run := by
  refine .run_bind (keeps_prepare current h op input .inOp) fun prepared => ?_
  refine .ask_bind rfl fun reply => ?_
  exact .run_bind (keeps_checkFault prepared.1) fun _ => .pure _

/-- A call that waits for 64 bits. -/
theorem keeps_inOutOp : Keeps (h.inOutOp current op input).run := by
  refine .run_bind (keeps_prepare current h op input .inOut) fun prepared => ?_
  refine .ask_bind rfl fun reply => ?_
  exact .run_bind (keeps_checkFault prepared.1) fun _ => .pure _

/-- A call that is completed later. -/
theorem keeps_inOutOpAsync (callback : Callback) (data : UInt64) :
    Keeps (h.inOutOpAsync current op input callback data).run := by
  refine .run_bind (keeps_prepare current h op input .inOutAsync) fun prepared => ?_
  exact .ask_bind rfl fun _ => keeps_checkFault prepared.1

end Operations

namespace Exchange

/-- No operation gives a durable reference back: that is left to the handle it opened. -/
theorem keeps_perform (x : Exchange) : Keeps x.perform.run := by
  cases x with
  | start ctx configPath name =>
    exact .run_bind (keeps_start ctx configPath name) fun _ => .pure _
  | find ctx name => exact .run_bind (keeps_find ctx name) fun _ => .pure _
  | cache current i name => exact .run_bind (keeps_cache current i name) fun _ => .pure _
  | inOp current h op input => exact .run_bind (keeps_inOp current h op input) fun _ => .pure _
  | inOutOp current h op input =>
    exact .run_bind (keeps_inOutOp current h op input) fun _ => .pure _
  | inOutOpAsync current h op input callback data =>
    exact .run_bind (keeps_inOutOpAsync current h op input callback data) fun _ => .pure _

/-! ## Nothing leaks -/

/-- The class references of the context are objects. -/
def Bound (x : Exchange) : Prop :=
  ∀ ctx, x.context? = some ctx → ∀ r ∈ ctx.descriptors.classes, r.isNull = false

/-- What is lent, with `p` pending, before anything was asked. -/
def opening (x : Exchange) (p : Bool) : Ledger where
  globals := x.lent
  classes := x.context?.elim [] (·.descriptors.named)
  pending := p

variable {x : Exchange} {p : Bool}

/-- What is lent to an operation is what the rules of its context ask for. -/
theorem usable_opening (hbound : x.Bound) {ctx : Context} (hctx : x.context? = some ctx) :
    Usable ctx.descriptors False (x.opening p) where
  up := rfl
  bound := ⟨hbound ctx hctx, by simp [opening, hctx], False.elim⟩
  held r hr := Multiset.mem_coe.mpr (by simp [lent, hctx, hr])

/-- The target of the handle is among what is lent. -/
theorem target_mem_opening {r : Ref} (h : x.target? = some r) : r ∈ (x.opening p).globals :=
  Multiset.mem_coe.mpr (by simp [lent, h])

/-- The durable references that a handle, if there is one, owns. -/
def owned : Option Handle → Multiset Ref
  | some handle => held handle.target
  | none => 0

/-- What is left when the operation ends: what was lent, and what the handle in its value owns. -/
def Leaves (x : Exchange) : Except BridgeError (Option Handle) → Ledger → Prop
  | .ok opened, ℓ => ℓ.locals = 0 ∧ ℓ.globals = x.lent + owned opened ∧
      ∀ handle, opened = some handle → handle.target.isNull = false
  | .error _, ℓ => ℓ.locals = 0 ∧ ℓ.globals = x.lent

/-- An operation that opened a handle leaves what that owns. -/
theorem leaves_opened {handle : Handle} {cls : TargetClass} {ℓ : Ledger}
    (h : Instance.Opened (x.opening p) handle cls ℓ) : x.Leaves (.ok (some handle)) ℓ := by
  obtain ⟨_, hobject, classes, _, rfl⟩ := h
  refine ⟨rfl, rfl, ?_⟩
  rintro _ ⟨⟩
  exact hobject

/-- An operation that opened none leaves what was lent, and perhaps an exception pending. -/
theorem leaves_ended (outcome : Except BridgeError (Option Handle)) (q : Bool)
    (h : ∀ opened, outcome = .ok opened → opened = none) :
    x.Leaves outcome { x.opening p with pending := q } := by
  cases outcome with
  | error e => exact ⟨rfl, rfl⟩
  | ok opened =>
    obtain rfl := h opened rfl
    exact ⟨rfl, (add_zero _).symm, nofun⟩

/-- Whatever the runtime answers, an operation leaves what was lent, and what its handle owns. -/
theorem wp_perform (hbound : x.Bound) (p : Bool) :
    Operation.wp (rules False) x.perform (fun opened => x.Leaves (.ok opened))
      (fun e => x.Leaves (.error e)) (x.opening p) := by
  -- an error leaves all as it was but for what is pending
  have hfailed : ∀ (e : BridgeError) (q : Bool), (False → q = false) →
      x.Leaves (.error e) { x.opening p with pending := q } :=
    fun e q _ => leaves_ended (.error e) q nofun
  have hended : ∀ q, x.Leaves (.ok none) { x.opening p with pending := q } :=
    fun q => leaves_ended (.ok none) q fun _ h => (Except.ok.inj h).symm
  have hreaches : ∀ {h : Handle} {current : Option Context}, x.context? = current →
      x.target? = some h.target → h.Reaches current False (x.opening p) := by
    rintro h _ rfl htarget ctx hctx
    exact ⟨usable_opening hbound hctx, target_mem_opening htarget⟩
  -- one specification for each operation, with what it may be called with discharged here
  cases x with
  | start ctx configPath name =>
    refine Operation.wp_bind.mpr ?_
    refine Instance.wp_start (usable_opening hbound rfl) False.elim (fun i ℓ' hopened => ?_) hfailed
    exact leaves_opened hopened
  | find ctx name =>
    refine Operation.wp_bind.mpr ?_
    refine Instance.wp_find (usable_opening hbound rfl) False.elim (fun i ℓ' hopened => ?_) hfailed
    exact leaves_opened hopened
  | cache current i name =>
    refine Operation.wp_bind.mpr ?_
    refine Instance.wp_cache ?_ False.elim (fun c ℓ' _ hopened => leaves_opened hopened) hfailed
    intro ctx hctx
    exact ⟨usable_opening hbound hctx, Ledger.holds_of_globals (target_mem_opening rfl)⟩
  | inOp current h op input =>
    refine Operation.wp_bind.mpr ?_
    exact Handle.wp_inOp (hreaches rfl rfl) rfl False.elim (fun _ _ => hended false) hfailed
  | inOutOp current h op input =>
    refine Operation.wp_bind.mpr ?_
    exact Handle.wp_inOutOp (hreaches rfl rfl) rfl False.elim (fun _ _ => hended false) hfailed
  | inOutOpAsync current h op input callback data =>
    refine Operation.wp_bind.mpr ?_
    exact Handle.wp_inOutOpAsync (hreaches rfl rfl) rfl False.elim (fun _ => hended false) hfailed

/-- **Nothing leaks.** Whatever a runtime answers within the failure contract, in the calls of an
operation:

* every local reference is given back as often as it was handed out, and a call is given only what is
  lent or was handed out and is still held (`Scoped`);
* where the runtime hands out only new references, each local reference is given back by exactly one
  later call, and no call after that is given it;
* the only durable reference that was handed out is the one that the handle in the result owns; without
  such a handle there is none. -/
theorem nothing_leaks {events : List Event} {outcome : Except BridgeError (Option Handle)}
    {p p' : Bool} (hbound : x.Bound) (hfollows : x.perform.run.Follows events outcome)
    (hinBand : InBandRun p events p') :
    Scoped x.lent events ∧
    (Fresh x.lent events → ∀ before e after, events = before ++ e :: after →
      ∀ r, r.isNull = false → e.newLocal = r →
        ∃ between rest, after = between ++ .called (.deleteLocalRef r) () :: rest ∧
          (∀ e' ∈ before ++ e :: between, e'.lostLocal ≠ r) ∧ ∀ e' ∈ rest, ¬ e'.Gets r) ∧
    match outcome with
    | .ok (some handle) => handle.target.isNull = false ∧ globalsOut events = {handle.target}
    | _ => globalsOut events = 0 := by
  obtain ⟨ℓ', hrun⟩ := hinBand.run (ℓ := x.opening p) rfl
  obtain ⟨hended, hkept⟩ := wp_follows (wp_perform hbound p) hfollows hrun
  have hleft : x.Leaves outcome ℓ' := by
    cases outcome <;> exact hended
  -- what the ledger holds at the end is what came in, since nothing durable was given back
  have hnoneBack := (keeps_perform x).globalsBack hfollows
  -- however it ended, no local reference is left
  have hlocals : ℓ'.locals = 0 := by
    cases outcome with
    | ok opened => exact hleft.1
    | error e => exact hleft.1
  have hsc : Scoped x.lent events := scoped_of_kept hkept rfl rfl hlocals hnoneBack
  refine ⟨hsc, ?_, ?_⟩
  · rintro hfresh before e after rfl r hr hcame
    exact hsc.given_back_once hfresh hr hcame
  · have hcounted := globals_add_globalsBack hkept
    rw [hnoneBack, add_zero] at hcounted
    have hout : ∀ refs, ℓ'.globals = x.lent + refs → globalsOut events = refs :=
      fun refs h => (add_left_cancel (h.symm.trans hcounted)).symm
    match outcome, hleft with
    | .ok (some handle), hleft =>
      have hobject := hleft.2.2 handle rfl
      exact ⟨hobject, (hout _ hleft.2.1).trans (held_of_not_null hobject)⟩
    | .ok none, hleft => exact hout _ hleft.2.1
    | .error _, hleft => exact hout 0 (hleft.2.trans (add_zero _).symm)

/-- A start on a context as a fresh runtime numbers it. -/
def startTwo : Exchange := .start { descriptors := numbered } "conf" "two"

/-- The string of the path is made and that of the name raises. The exception is read, told and given
back, and last the string of the path. -/
def secondStringRaised : List Event := [
  .called .attach (.ok ()),
  .called (.newString "conf") ⟨17⟩,
  .called (.newString "two") .null,
  .called .exceptionCheck true,
  .called .exceptionCheck true,
  .called .exceptionOccurred ⟨18⟩,
  .called .exceptionClear (),
  .called (.getObjectClass ⟨18⟩) ⟨19⟩,
  .called (.callObject ⟨19⟩ ⟨3⟩ []) ⟨20⟩,
  .called (.deleteLocalRef ⟨19⟩) (),
  .called .exceptionCheck false,
  .called (.getString ⟨20⟩) (some "java.lang.OutOfMemoryError"),
  .called (.deleteLocalRef ⟨20⟩) (),
  .called (.callObject ⟨18⟩ ⟨2⟩ []) ⟨21⟩,
  .called (.deleteLocalRef ⟨18⟩) (),
  .called .exceptionCheck false,
  .called (.getString ⟨21⟩) (some "heap"),
  .called (.deleteLocalRef ⟨21⟩) (),
  .reported { message := "heap", className := some "java.lang.OutOfMemoryError" },
  .called (.deleteLocalRef ⟨17⟩) ()]

/-- The events are a run of the start. -/
theorem startTwo_follows : startTwo.perform.run.Follows secondStringRaised
    (.error (.managedFault { message := "heap", className := some "java.lang.OutOfMemoryError" })) :=
  .call _ (.call _ (.call _ (.call _ (.call _ (.call _ (.call _ (.call _ (.call _ (.call _
    (.call _ (.call _ (.call _ (.call _ (.call _ (.call _ (.call _ (.call _ (.report
      (.call _ (.done _))))))))))))))))))))

/-- They are within the failure contract. -/
theorem startTwo_inBand : InBandRun false secondStringRaised false := by
  have hquiet : ∀ {p : Bool} {request : Call} {reply : request.Reply},
      request.leaves p false → request.truthful reply p → InBand p request reply false :=
    fun hleaves htruthful => ⟨hleaves, htruthful, nofun, nofun⟩
  have hstill : ∀ {request : Call} {reply : request.Reply}, request.leaves true true →
      request.truthful reply true → (request ≠ .exceptionOccurred → request.newLocal reply = .null) →
      request.newGlobal reply = .null → InBand true request reply true :=
    fun hleaves htruthful hnoLocal hnoGlobal => ⟨hleaves, htruthful, fun _ => hnoLocal,
      fun _ => hnoGlobal⟩
  exact .called (hquiet id trivial) <| .called (hquiet trivial trivial) <|
    -- the second string raises, and the exception stays until it is cleared
    .called ⟨trivial, trivial, fun _ _ => rfl, fun _ => rfl⟩ <|
    .called (hstill rfl rfl (fun _ => rfl) rfl) <| .called (hstill rfl rfl (fun _ => rfl) rfl) <|
    .called (hstill rfl trivial (absurd rfl) rfl) <| .called (hquiet rfl trivial) <|
    .called (hquiet trivial trivial) <| .called (hquiet trivial trivial) <|
    .called (hquiet rfl trivial) <| .called (hquiet rfl rfl) <| .called (hquiet trivial trivial) <|
    .called (hquiet rfl trivial) <| .called (hquiet trivial trivial) <| .called (hquiet rfl trivial) <|
    .called (hquiet rfl rfl) <| .called (hquiet trivial trivial) <| .called (hquiet rfl trivial) <|
    .reported <| .called (hquiet rfl trivial) <| .done false

theorem startTwo_leaks_nothing :
    startTwo.Bound ∧ Fresh startTwo.lent secondStringRaised ∧
      localsOut secondStringRaised = localsBack secondStringRaised ∧
      globalsOut secondStringRaised = 0 ∧
      ∃ between rest, secondStringRaised.drop 2 =
          between ++ .called (.deleteLocalRef ⟨17⟩) () :: rest ∧
        ∀ e ∈ rest, ¬ e.Gets ⟨17⟩ := by
  have hbound : startTwo.Bound := by
    rintro _ ⟨⟩
    decide
  have hfresh : Fresh startTwo.lent secondStringRaised := ⟨by decide, by decide⟩
  obtain ⟨hsc, honce, hdurable⟩ := nothing_leaks hbound startTwo_follows startTwo_inBand
  refine ⟨hbound, hfresh, hsc.localsKept, hdurable, ?_⟩
  obtain ⟨between, rest, hfound, _, hunused⟩ := honce hfresh (secondStringRaised.take 1)
    (.called (.newString "conf") ⟨17⟩) (secondStringRaised.drop 2) rfl ⟨17⟩ rfl rfl
  exact ⟨between, rest, hfound, hunused⟩

end Exchange

end GridBridge.Bridge
