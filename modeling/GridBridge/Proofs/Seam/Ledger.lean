import GridBridge.Managed.MethodTable
import GridBridge.Proofs.Seam.Contract
import Mathlib.Algebra.Order.Group.Multiset

/-!
# Ledgers: references, pending exceptions and what they mean for the next call

A **`Ledger`** is what a careful caller would write down about a runtime: the references that it was
handed and has not given back, the classes it knows references to, what it registered, how often it
destroyed the runtime, and whether an exception is pending on its thread.

* **`Ledger.record`** writes one call and its answer down.
* **`InBand`** is the failure contract of the seam: where an exception may come from, and that no
  object comes with one.
* **`rules`** is the contract of the bridge with a runtime. Under `strict := False` the runtime is
  arbitrary within `InBand`, and all that is asked of the bridge is to use and to give back only what
  it holds. Under `strict := True` the runtime is one that looks methods up by class, and the bridge
  must also call nothing with an exception pending, and no method through a class that lacks it.

The `wp_…` lemmas are the rules of the contract, one for each call.
-/

namespace GridBridge.Seam

open Protocol Managed

/-! ## What a call hands out, uses and gives back -/

namespace Call

/-- The local reference that comes with an answer; null for none. -/
@[simp] def newLocal : (request : Call) → request.Reply → Ref
  | .findClass _, r => r
  | .getObjectClass _, r => r
  | .newString _, r => r
  | .callStatic .., r => r
  | .callObject .., r => r
  | .exceptionOccurred, r => r
  | .launch _, _ | .attach, _ | .destroy, _ | .getMethodId .., _ | .getString _, _ | .callInt .., _
  | .callLong .., _ | .callVoid .., _ | .exceptionCheck, _ | .exceptionDescribe, _
  | .exceptionClear, _ | .newGlobalRef _, _ | .deleteGlobalRef _, _ | .deleteLocalRef _, _
  | .registerNatives .., _ => .null

/-- The global reference that comes with an answer; null for none. -/
@[simp] def newGlobal : (request : Call) → request.Reply → Ref
  | .newGlobalRef _, r => r
  | .launch _, _ | .attach, _ | .destroy, _ | .findClass _, _ | .getMethodId .., _
  | .getObjectClass _, _ | .newString _, _ | .getString _, _ | .callStatic .., _
  | .callObject .., _ | .callInt .., _ | .callLong .., _ | .callVoid .., _ | .exceptionCheck, _
  | .exceptionOccurred, _ | .exceptionDescribe, _ | .exceptionClear, _ | .deleteGlobalRef _, _
  | .deleteLocalRef _, _ | .registerNatives .., _ => .null

/-- The local reference that a call gives back; null for none. -/
@[simp] def lostLocal : Call → Ref
  | .deleteLocalRef r => r
  | _ => .null

/-- The global reference that a call gives back; null for none. -/
@[simp] def lostGlobal : Call → Ref
  | .deleteGlobalRef r => r
  | _ => .null

/-- References among arguments. -/
def argRefs (args : List Arg) : List Ref := args.filterMap (·.asObject?)

/-- The references that a call looks behind. -/
@[simp] def uses : Call → List Ref
  | .getMethodId cls _ => [cls]
  | .getObjectClass obj => [obj]
  | .getString str => [str]
  | .callStatic cls _ args => cls :: argRefs args
  | .callObject obj _ args => obj :: argRefs args
  | .callInt obj cls _ args | .callLong obj cls _ args | .callVoid obj cls _ args =>
    obj :: cls :: argRefs args
  | .newGlobalRef obj => [obj]
  | .registerNatives cls _ => [cls]
  | _ => []

/-- Calls that may not be made while an exception is pending: those that a runtime refuses then, and
those whose answer could not be told from an object that comes with an exception. -/
@[simp] def needsClear : Call → Bool
  | .findClass _ | .getMethodId .. | .getObjectClass _ | .newString _ | .callStatic ..
  | .callObject .. | .callInt .. | .callLong .. | .callVoid .. | .newGlobalRef _
  | .registerNatives .. => true
  | _ => false

end Call

/-! ## The failure contract of the seam -/

/-- What a call may do to the exception pending on its thread. Managed calls may do anything to it,
as far as this goes. -/
@[simp] def Call.leaves : Call → Bool → Bool → Prop
  | .exceptionClear, _, p' => p' = false
  | .exceptionCheck, p, p' | .exceptionOccurred, p, p' | .deleteGlobalRef _, p, p'
  | .deleteLocalRef _, p, p' => p' = p
  | .exceptionDescribe, p, p' | .launch _, p, p' | .attach, p, p' | .destroy, p, p' => p' → p
  | _, _, _ => True

/-- A check for an exception tells the truth. -/
@[simp] def Call.truthful : (request : Call) → request.Reply → Bool → Prop
  | .exceptionCheck, reply, p => reply = p
  | _, _, _ => True

/-- Failures are in band: from a call that was made with `p` pending, this answer and `p'` pending
may come back. No object comes with an exception, except the exception itself. -/
structure InBand (p : Bool) (request : Call) (reply : request.Reply) (p' : Bool) : Prop where
  leaves : request.leaves p p'
  truthful : request.truthful reply p
  noLocal : p' = true → request ≠ .exceptionOccurred → request.newLocal reply = .null
  noGlobal : p' = true → request.newGlobal reply = .null

/-! ## Ledgers -/

/-- One reference, or nothing in place of the null reference. -/
def held (r : Ref) : Multiset Ref := if r.isNull then 0 else {r}

/-- In place of the null reference there is nothing. -/
@[simp] theorem held_null : held .null = 0 := rfl

/-- Any other reference is one. -/
theorem held_of_not_null {r : Ref} (h : r.isNull = false) : held r = {r} := by simp [held, h]

/-- A reference that is handed out is one more of those that are held. -/
theorem add_held {r : Ref} (h : r.isNull = false) (refs : Multiset Ref) :
    refs + held r = r ::ₘ refs := by
  rw [held_of_not_null h, add_comm, Multiset.singleton_add]

/-- What was handed out and not given back, and what else a caller has to remember. -/
@[ext] structure Ledger where
  locals : Multiset Ref := 0
  globals : Multiset Ref := 0
  /-- References to classes, with the names of the classes. -/
  classes : List (Ref × String) := []
  /-- Native methods that were registered, with the class reference used. -/
  registered : List (Ref × List NativeMethod) := []
  /-- Launches that succeeded. -/
  launches : Nat := 0
  destroys : Nat := 0
  pending : Bool := false
  /-- Threads may attach. -/
  admits : Bool := true
  /-- A runtime may be launched. -/
  vacant : Bool := true

namespace Ledger

/-- The reference is null or was handed out and not given back. -/
def Holds (ℓ : Ledger) (r : Ref) : Prop := r = .null ∨ r ∈ ℓ.locals ∨ r ∈ ℓ.globals

/-- The null reference is always held. -/
theorem holds_null (ℓ : Ledger) : ℓ.Holds .null := .inl rfl

/-- A durable reference that was handed out and not given back is held. -/
theorem holds_of_globals {ℓ : Ledger} {r : Ref} (h : r ∈ ℓ.globals) : ℓ.Holds r := .inr (.inr h)

/-- So is a local one that was the last to be handed out. -/
theorem holds_of_held {ℓ : Ledger} {r : Ref} {L : Multiset Ref} (h : ℓ.locals = L + held r) :
    ℓ.Holds r := by
  cases hr : r.isNull with
  | true => exact .inl (Ref.isNull_iff.mp hr)
  | false => exact .inr (.inl (by simp [h, held_of_not_null hr]))

/-- What a call and its answer say about classes. -/
@[simp] def learn (classes : List (Ref × String)) :
    (request : Call) → request.Reply → List (Ref × String)
  | .findClass name, r => if Ref.isNull r then classes else (r, name) :: classes
  | .newGlobalRef obj, r =>
    if Ref.isNull r then classes
    else (classes.filter (·.1 = obj)).map (fun known => (r, known.2)) ++ classes
  | _, _ => classes

/-- What is known of classes stays known. -/
theorem subset_learn (classes : List (Ref × String)) (request : Call) (reply : request.Reply) :
    classes ⊆ learn classes request reply := by
  intro c hc
  cases request with
  | findClass name =>
    rw [learn]
    split
    · exact hc
    · exact List.mem_cons_of_mem _ hc
  | newGlobalRef obj =>
    rw [learn]
    split
    · exact hc
    · exact List.mem_append_right _ hc
  | _ => exact hc

/-- What a call and its answer say about native methods. -/
@[simp] def note (registered : List (Ref × List NativeMethod)) :
    (request : Call) → request.Reply → List (Ref × List NativeMethod)
  | .registerNatives cls methods, status =>
    if status = Status.ok then registered ++ [(cls, methods)] else registered
  | _, _ => registered

/-- Writes a call, its answer and what is pending after it down. -/
def record (ℓ : Ledger) (request : Call) (reply : request.Reply) (pending : Bool) : Ledger where
  locals := ℓ.locals + held (request.newLocal reply) - held request.lostLocal
  globals := ℓ.globals + held (request.newGlobal reply) - held request.lostGlobal
  classes := learn ℓ.classes request reply
  registered := note ℓ.registered request reply
  launches := match request, reply with | .launch _, .ok _ => ℓ.launches + 1 | _, _ => ℓ.launches
  destroys := match request with | .destroy => ℓ.destroys + 1 | _ => ℓ.destroys
  pending := pending
  admits := ℓ.admits
  vacant := ℓ.vacant

/-! ## The contract of the bridge -/

/-- A method identifier that denotes a method, static or not. -/
def Denotes (id : MethodId) (isStatic : Bool) : Prop :=
  ∃ entry, methodEntry? id = some entry ∧ entry.spec.isStatic = isStatic

/-- A method identifier may be called through this class. -/
def Through (ℓ : Ledger) (cls : Ref) (id : MethodId) : Prop :=
  ∃ entry name, methodEntry? id = some entry ∧ entry.spec.isStatic = false ∧
    (cls, name) ∈ ℓ.classes ∧ isSubclass name entry.cls

/-- What a strict runtime asks of a call besides references: that classes are classes and that
methods are called as what they are. -/
@[simp] def Typed (ℓ : Ledger) : Call → Prop
  | .getMethodId cls _ | .registerNatives cls _ => ∃ name, (cls, name) ∈ ℓ.classes
  | .callStatic _ id _ => Denotes id true
  | .callObject _ id _ => Denotes id false
  | .callInt _ cls id _ | .callLong _ cls id _ | .callVoid _ cls id _ => ℓ.Through cls id
  | _ => True

/-- What a strict runtime promises besides: a method that is found is a method of the class, what
succeeds or only looks raises nothing, and until a launch succeeds a runtime is known to take one or
not, and to let threads attach or not. -/
@[simp] def Strict (ℓ : Ledger) : (request : Call) → request.Reply → Bool → Prop
  | .getMethodId cls spec, reply, p' => ∀ id, reply = some id →
    p' = ℓ.pending ∧ ∀ name, (cls, name) ∈ ℓ.classes → findMethod name spec = some id
  | .registerNatives .., status, p' => status = Status.ok → p' = ℓ.pending
  | .getObjectClass _, _, p' | .getString _, _, p' => p' = ℓ.pending
  | .launch _, reply, _ => ℓ.launches = 0 → Except.isOk reply = true → ℓ.vacant = true
  | .attach, reply, _ => ℓ.launches = 0 → Except.isOk reply = ℓ.admits
  | _, _, _ => True

end Ledger

/-- The contract of the bridge with a runtime. -/
def rules (strict : Prop) : Contract Ledger where
  takes ℓ request :=
    ℓ.destroys = 0 ∧ (∀ r ∈ request.uses, ℓ.Holds r) ∧ held request.lostLocal ≤ ℓ.locals ∧
      held request.lostGlobal ≤ ℓ.globals ∧
      (strict → (request.needsClear → ℓ.pending = false) ∧ ℓ.Typed request)
  answers ℓ request reply ℓ' := ∃ p', InBand ℓ.pending request reply p' ∧
    (strict → ℓ.Strict request reply p') ∧ ℓ' = ℓ.record request reply p'

/-! ## The rules, one for each call -/

namespace Script

variable {strict : Prop} {ℓ : Ledger}

/-- A call that gives nothing back is taken when everything it looks behind is held. -/
theorem takes_of_uses {request : Call} (hup : ℓ.destroys = 0)
    (huses : ∀ r ∈ request.uses, ℓ.Holds r) (hlocal : request.lostLocal = .null)
    (hglobal : request.lostGlobal = .null)
    (hstrict : strict → (request.needsClear → ℓ.pending = false) ∧ ℓ.Typed request) :
    (rules strict).takes ℓ request := by
  refine ⟨hup, huses, ?_, ?_, hstrict⟩
  · rw [hlocal]
    exact Multiset.zero_le _
  · rw [hglobal]
    exact Multiset.zero_le _

/-- A call that the contract takes comes back with an answer in band, which is written down. -/
theorem wp_call {request : Call} {Q : request.Reply → Ledger → Prop}
    (htakes : (rules strict).takes ℓ request)
    (hQ : ∀ reply p, InBand ℓ.pending request reply p → (strict → ℓ.Strict request reply p) →
      Q reply (ℓ.record request reply p)) :
    (ask request).wp (rules strict) Q ℓ := by
  refine wp_ask.mpr ⟨htakes, ?_⟩
  rintro reply _ ⟨p, hband, hstrict, rfl⟩
  exact hQ reply p hband hstrict

/-! ### Looking up -/

/-- A class is looked up: the reference to it is handed out, and known to be one of that class. -/
theorem wp_findClass {name : String} {Q : Ref → Ledger → Prop} (hup : ℓ.destroys = 0)
    (hclear : strict → ℓ.pending = false)
    (hQ : ∀ r p, (p = true → r = .null) → Q r { ℓ with
      locals := ℓ.locals + held r
      classes := Ledger.learn ℓ.classes (.findClass name) r
      pending := p }) :
    (ask (.findClass name)).wp (rules strict) Q ℓ := by
  refine wp_call (takes_of_uses hup nofun rfl rfl fun hs => ⟨fun _ => hclear hs, trivial⟩) ?_
  intro r p hband _
  simpa [Ledger.record] using hQ r p fun hp => hband.noLocal hp nofun

/-- A method is looked up: under a strict runtime one that is found is one of the class. -/
theorem wp_getMethodId {cls : Ref} {spec : MethodSpec} {Q : Option MethodId → Ledger → Prop}
    (hup : ℓ.destroys = 0) (hcls : ℓ.Holds cls) (hclear : strict → ℓ.pending = false)
    (htyped : strict → ∃ name, (cls, name) ∈ ℓ.classes)
    (hQ : ∀ reply p, (strict → ∀ id, reply = some id → p = false ∧
      ∀ name, (cls, name) ∈ ℓ.classes → findMethod name spec = some id) →
      Q reply { ℓ with pending := p }) :
    (ask (.getMethodId cls spec)).wp (rules strict) Q ℓ := by
  refine wp_call (takes_of_uses hup (by simpa using hcls) rfl rfl
    fun hs => ⟨fun _ => hclear hs, htyped hs⟩) ?_
  intro reply p _ hstrict
  have hfound : strict → ∀ id, reply = some id → p = false ∧
      ∀ name, (cls, name) ∈ ℓ.classes → findMethod name spec = some id := by
    intro hs id hid
    obtain ⟨hp, hmethod⟩ := hstrict hs id hid
    exact ⟨hp.trans (hclear hs), hmethod⟩
  simpa [Ledger.record] using hQ reply p hfound

/-- The class of an object is asked for. -/
theorem wp_getObjectClass {obj : Ref} {Q : Ref → Ledger → Prop} (hup : ℓ.destroys = 0)
    (hobj : ℓ.Holds obj) (hclear : strict → ℓ.pending = false)
    (hQ : ∀ r p, (p = true → r = .null) → (strict → p = ℓ.pending) →
      Q r { ℓ with locals := ℓ.locals + held r, pending := p }) :
    (ask (.getObjectClass obj)).wp (rules strict) Q ℓ := by
  refine wp_call (takes_of_uses hup (by simpa using hobj) rfl rfl
    fun hs => ⟨fun _ => hclear hs, trivial⟩) ?_
  intro r p hband hstrict
  simpa [Ledger.record] using hQ r p (fun hp => hband.noLocal hp nofun) hstrict

/-! ### Strings -/

/-- A string is made. -/
theorem wp_newString {text : String} {Q : Ref → Ledger → Prop} (hup : ℓ.destroys = 0)
    (hclear : strict → ℓ.pending = false)
    (hQ : ∀ r p, (p = true → r = .null) →
      Q r { ℓ with locals := ℓ.locals + held r, pending := p }) :
    (ask (.newString text)).wp (rules strict) Q ℓ := by
  refine wp_call (takes_of_uses hup nofun rfl rfl fun hs => ⟨fun _ => hclear hs, trivial⟩) ?_
  intro r p hband _
  simpa [Ledger.record] using hQ r p fun hp => hband.noLocal hp nofun

/-- A string is read: nothing is handed out. -/
theorem wp_getString {str : Ref} {Q : Option String → Ledger → Prop} (hup : ℓ.destroys = 0)
    (hstr : ℓ.Holds str)
    (hQ : ∀ reply p, (strict → p = ℓ.pending) → Q reply { ℓ with pending := p }) :
    (ask (.getString str)).wp (rules strict) Q ℓ := by
  refine wp_call (takes_of_uses hup (by simpa using hstr) rfl rfl fun _ => ⟨nofun, trivial⟩) ?_
  intro reply p _ hstrict
  simpa [Ledger.record] using hQ reply p hstrict

/-! ### Calling methods -/

/-- A static method whose answer is an object. -/
theorem wp_callStatic {cls : Ref} {id : MethodId} {args : List Arg} {Q : Ref → Ledger → Prop}
    (hup : ℓ.destroys = 0) (hcls : ℓ.Holds cls) (hargs : ∀ r ∈ Call.argRefs args, ℓ.Holds r)
    (hclear : strict → ℓ.pending = false) (htyped : strict → Ledger.Denotes id true)
    (hQ : ∀ r p, (p = true → r = .null) →
      Q r { ℓ with locals := ℓ.locals + held r, pending := p }) :
    (ask (.callStatic cls id args)).wp (rules strict) Q ℓ := by
  refine wp_call (takes_of_uses hup (List.forall_mem_cons.mpr ⟨hcls, hargs⟩) rfl rfl
    fun hs => ⟨fun _ => hclear hs, htyped hs⟩) ?_
  intro r p hband _
  simpa [Ledger.record] using hQ r p fun hp => hband.noLocal hp nofun

/-- A method of an object whose answer is an object. -/
theorem wp_callObject {obj : Ref} {id : MethodId} {args : List Arg} {Q : Ref → Ledger → Prop}
    (hup : ℓ.destroys = 0) (hobj : ℓ.Holds obj) (hargs : ∀ r ∈ Call.argRefs args, ℓ.Holds r)
    (hclear : strict → ℓ.pending = false) (htyped : strict → Ledger.Denotes id false)
    (hQ : ∀ r p, (p = true → r = .null) →
      Q r { ℓ with locals := ℓ.locals + held r, pending := p }) :
    (ask (.callObject obj id args)).wp (rules strict) Q ℓ := by
  refine wp_call (takes_of_uses hup (List.forall_mem_cons.mpr ⟨hobj, hargs⟩) rfl rfl
    fun hs => ⟨fun _ => hclear hs, htyped hs⟩) ?_
  intro r p hband _
  simpa [Ledger.record] using hQ r p fun hp => hband.noLocal hp nofun

/-- A call whose answer is no object. The three kinds of it differ in the type of the answer only. -/
theorem wp_callValue {request : Call} {obj cls : Ref} {id : MethodId} {args : List Arg}
    (hkind : request = .callInt obj cls id args ∨ request = .callLong obj cls id args ∨
      request = .callVoid obj cls id args)
    {Q : request.Reply → Ledger → Prop} (hup : ℓ.destroys = 0) (hobj : ℓ.Holds obj)
    (hcls : ℓ.Holds cls) (hargs : ∀ r ∈ Call.argRefs args, ℓ.Holds r)
    (hclear : strict → ℓ.pending = false) (htyped : strict → ℓ.Through cls id)
    (hQ : ∀ reply p, Q reply { ℓ with pending := p }) :
    (ask request).wp (rules strict) Q ℓ := by
  have huses : ∀ r ∈ obj :: cls :: Call.argRefs args, ℓ.Holds r :=
    List.forall_mem_cons.mpr ⟨hobj, List.forall_mem_cons.mpr ⟨hcls, hargs⟩⟩
  -- the ledger does not see which of the three it is
  rcases hkind with rfl | rfl | rfl <;>
  · refine wp_call (takes_of_uses hup huses rfl rfl fun hs => ⟨fun _ => hclear hs, htyped hs⟩) ?_
    intro reply p _ _
    simpa [Ledger.record] using hQ reply p

/-! ### Exceptions -/

/-- A check tells what is written down, and changes nothing. -/
theorem wp_exceptionCheck {Q : Bool → Ledger → Prop} (hup : ℓ.destroys = 0)
    (hQ : Q ℓ.pending ℓ) : (ask .exceptionCheck).wp (rules strict) Q ℓ := by
  refine wp_call (takes_of_uses hup nofun rfl rfl fun _ => ⟨nofun, trivial⟩) ?_
  intro reply p hband _
  obtain rfl : p = ℓ.pending := hband.leaves
  obtain rfl : reply = ℓ.pending := hband.truthful
  simpa [Ledger.record] using hQ

/-- The exception is handed out as a local reference, if there is one. -/
theorem wp_exceptionOccurred {Q : Ref → Ledger → Prop} (hup : ℓ.destroys = 0)
    (hQ : ∀ r, Q r { ℓ with locals := ℓ.locals + held r }) :
    (ask .exceptionOccurred).wp (rules strict) Q ℓ := by
  refine wp_call (takes_of_uses hup nofun rfl rfl fun _ => ⟨nofun, trivial⟩) ?_
  intro r p hband _
  obtain rfl : p = ℓ.pending := hband.leaves
  simpa [Ledger.record] using hQ r

/-- The exception is described. It may be gone afterwards. -/
theorem wp_exceptionDescribe {Q : Unit → Ledger → Prop} (hup : ℓ.destroys = 0)
    (hQ : ∀ p, Q () { ℓ with pending := p }) :
    (ask .exceptionDescribe).wp (rules strict) Q ℓ := by
  refine wp_call (takes_of_uses hup nofun rfl rfl fun _ => ⟨nofun, trivial⟩) ?_
  intro _ p _ _
  simpa [Ledger.record] using hQ p

/-- Nothing is pending afterwards. -/
theorem wp_exceptionClear {Q : Unit → Ledger → Prop} (hup : ℓ.destroys = 0)
    (hQ : Q () { ℓ with pending := false }) :
    (ask .exceptionClear).wp (rules strict) Q ℓ := by
  refine wp_call (takes_of_uses hup nofun rfl rfl fun _ => ⟨nofun, trivial⟩) ?_
  intro _ p hband _
  obtain rfl : p = false := hband.leaves
  simpa [Ledger.record] using hQ

/-! ### References -/

/-- A reference is made durable, and what was known of it is known of the durable one. -/
theorem wp_newGlobalRef {obj : Ref} {Q : Ref → Ledger → Prop} (hup : ℓ.destroys = 0)
    (hobj : ℓ.Holds obj) (hclear : strict → ℓ.pending = false)
    (hQ : ∀ r p, (p = true → r = .null) → Q r { ℓ with
      globals := ℓ.globals + held r
      classes := Ledger.learn ℓ.classes (.newGlobalRef obj) r
      pending := p }) :
    (ask (.newGlobalRef obj)).wp (rules strict) Q ℓ := by
  refine wp_call (takes_of_uses hup (by simpa using hobj) rfl rfl
    fun hs => ⟨fun _ => hclear hs, trivial⟩) ?_
  intro r p hband _
  simpa [Ledger.record] using hQ r p hband.noGlobal

/-- A local reference is given back: one of those that are held. -/
theorem wp_deleteLocalRef {r : Ref} {L : Multiset Ref} {Q : Unit → Ledger → Prop}
    (hup : ℓ.destroys = 0) (hlocals : ℓ.locals = L + held r) (hQ : Q () { ℓ with locals := L }) :
    (ask (.deleteLocalRef r)).wp (rules strict) Q ℓ := by
  refine wp_call ⟨hup, nofun, ?_, Multiset.zero_le _, fun _ => ⟨nofun, trivial⟩⟩ ?_
  · rw [hlocals]
    exact Multiset.le_add_left _ _
  · intro _ p hband _
    obtain rfl : p = ℓ.pending := hband.leaves
    simpa [Ledger.record, hlocals, Multiset.add_sub_cancel_right] using hQ

/-- A durable reference is given back: one of those that are held. -/
theorem wp_deleteGlobalRef {r : Ref} {G : Multiset Ref} {Q : Unit → Ledger → Prop}
    (hup : ℓ.destroys = 0) (hglobals : ℓ.globals = G + held r)
    (hQ : Q () { ℓ with globals := G }) :
    (ask (.deleteGlobalRef r)).wp (rules strict) Q ℓ := by
  refine wp_call ⟨hup, nofun, Multiset.zero_le _, ?_, fun _ => ⟨nofun, trivial⟩⟩ ?_
  · rw [hglobals]
    exact Multiset.le_add_left _ _
  · intro _ p hband _
    obtain rfl : p = ℓ.pending := hband.leaves
    simpa [Ledger.record, hglobals, Multiset.add_sub_cancel_right] using hQ

/-! ### The runtime as a whole -/

/-- A call that handed an object out raised nothing. -/
theorem clear_of_object {p : Bool} {r : Ref} (hraised : p = true → r = .null)
    (hobject : r.isNull = false) : p = false := by
  cases p with
  | false => rfl
  | true =>
    rw [hraised rfl] at hobject
    exact absurd hobject nofun

/-- A call that raises nothing leaves a clear thread clear. -/
theorem clear_of_clear {p q : Bool} (hq : strict → q = false) (hpq : p = true → q = true) :
    strict → p = false := by
  intro hs
  cases p with
  | false => rfl
  | true => exact (hpq rfl).symm.trans (hq hs)

/-- A launch is counted if it makes a runtime, and raises nothing in any case. -/
theorem wp_launch {args : LaunchArgs} {Q : Except Status Unit → Ledger → Prop}
    (hup : ℓ.destroys = 0)
    (hok : ∀ p, (p = true → ℓ.pending = true) → (strict → ℓ.launches = 0 → ℓ.vacant = true) →
      Q (.ok ()) { ℓ with launches := ℓ.launches + 1, pending := p })
    (herror : ∀ code p, (p = true → ℓ.pending = true) →
      Q (.error code) { ℓ with pending := p }) :
    (ask (.launch args)).wp (rules strict) Q ℓ := by
  refine wp_call (takes_of_uses hup nofun rfl rfl fun _ => ⟨nofun, trivial⟩) ?_
  rintro (code | ⟨⟩) p hband hstrict
  · simpa [Ledger.record] using herror code p hband.leaves
  · simpa [Ledger.record] using hok p hband.leaves fun hs hl => hstrict hs hl rfl

/-- A thread is taken or refused, and nothing is raised. -/
theorem wp_attach {Q : Except Status Unit → Ledger → Prop} (hup : ℓ.destroys = 0)
    (hok : ∀ p, (p = true → ℓ.pending = true) → (strict → ℓ.launches = 0 → ℓ.admits = true) →
      Q (.ok ()) { ℓ with pending := p })
    (hrefused : ∀ code p, (p = true → ℓ.pending = true) →
      (strict → ℓ.launches = 0 → ℓ.admits = false) → Q (.error code) { ℓ with pending := p }) :
    (ask .attach).wp (rules strict) Q ℓ := by
  refine wp_call (takes_of_uses hup nofun rfl rfl fun _ => ⟨nofun, trivial⟩) ?_
  rintro (code | ⟨⟩) p hband hstrict
  · simpa [Ledger.record] using hrefused code p hband.leaves fun hs hl => (hstrict hs hl).symm
  · simpa [Ledger.record] using hok p hband.leaves fun hs hl => (hstrict hs hl).symm

/-- The runtime is destroyed, once. -/
theorem wp_destroy {Q : Unit → Ledger → Prop} (hup : ℓ.destroys = 0)
    (hQ : ∀ p, (p = true → ℓ.pending = true) → Q () { ℓ with destroys := 1, pending := p }) :
    (ask .destroy).wp (rules strict) Q ℓ := by
  refine wp_call (takes_of_uses hup nofun rfl rfl fun _ => ⟨nofun, trivial⟩) ?_
  intro _ p hband _
  simpa [Ledger.record, hup] using hQ p hband.leaves

/-- Natives are registered with a class, which is written down if they are taken. -/
theorem wp_registerNatives {cls : Ref} {methods : List NativeMethod} {Q : Status → Ledger → Prop}
    (hup : ℓ.destroys = 0) (hcls : ℓ.Holds cls) (hclear : strict → ℓ.pending = false)
    (htyped : strict → ∃ name, (cls, name) ∈ ℓ.classes)
    (hQ : ∀ status p, (strict → status = Status.ok → p = false) → Q status { ℓ with
      registered := Ledger.note ℓ.registered (.registerNatives cls methods) status
      pending := p }) :
    (ask (.registerNatives cls methods)).wp (rules strict) Q ℓ := by
  refine wp_call (takes_of_uses hup (by simpa using hcls) rfl rfl
    fun hs => ⟨fun _ => hclear hs, htyped hs⟩) ?_
  intro status p _ hstrict
  have hok : strict → status = Status.ok → p = false := fun hs hok =>
    (hstrict hs hok).trans (hclear hs)
  simpa [Ledger.record] using hQ status p hok

end Script

end GridBridge.Seam
