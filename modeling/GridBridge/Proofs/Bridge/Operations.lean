import GridBridge.Bridge.Instance
import GridBridge.Proofs.Bridge.Faults
import GridBridge.Proofs.Bridge.Resolution

/-!
# Operations: what they leave in the ledger

One lemma for each operation on a started runtime. An operation that fails leaves the ledger as it
was, and one that opens something leaves one durable reference more, which its handle owns. Under the
strict rules nothing is pending afterwards.
-/

namespace GridBridge.Bridge

open Protocol Seam Seam.Script Descriptors

variable {strict : Prop} {ℓ : Ledger} {d : Descriptors} {ctx : Context}

/-- The descriptors can be used: the runtime is up, and the references are bound and held. -/
structure Usable (d : Descriptors) (strict : Prop) (ℓ : Ledger) : Prop where
  up : ℓ.destroys = 0
  bound : d.Bound strict ℓ.classes
  held : ∀ r ∈ d.classes, r ∈ ℓ.globals

namespace Usable

theorem holds (h : Usable d strict ℓ) {r : Ref} (hr : r ∈ d.classes) : ℓ.Holds r :=
  Ledger.holds_of_globals (h.held r hr)

/-- What a ledger says of locals and of what is pending does not matter. -/
theorem shift (h : Usable d strict ℓ) (locals : Multiset Ref) (p : Bool) :
    Usable d strict { ℓ with locals, pending := p } :=
  ⟨h.up, h.bound, h.held⟩

end Usable

/-! ## Faults of operations -/

/-- An exception that is held is given back, whether its message was read or its accessor raised. -/
theorem wp_readHeld {Q : Attempt → Ledger → Prop} (h : Usable d strict ℓ)
    (hread : ∀ fault p, (strict → p = false) → Q (.read fault) { ℓ with pending := p })
    (hraised : ∀ className p, Q (.raised className) { ℓ with pending := p }) (err : Ref) (p : Bool) :
    (readHeld d err).wp (rules strict) Q { ℓ with locals := ℓ.locals + held err, pending := p } := by
  unfold readHeld readMessage
  refine wp_bind.mpr (wp_exceptionClear h.up ?_)
  have herr : ∀ p, ({ ℓ with locals := ℓ.locals + held err, pending := p } : Ledger).Holds err :=
    fun _ => Ledger.holds_of_held rfl
  refine wp_bind.mpr (wp_classNameOf h.up (herr false) (fun _ => rfl) ?_ ?_)
  · exact fun hs => h.bound.denotes hs ClassName.cls Method.getName (by simp [looked])
  · intro className p hp
    refine wp_bind.mpr ?_
    refine wp_callObject h.up (herr p) nofun hp ?_ ?_
    · exact fun hs => h.bound.denotes hs ClassName.throwable Method.getMessage (by simp [looked])
    · intro message p' hobject
      refine wp_bind.mpr (wp_deleteLocalRef h.up (add_right_comm _ _ _) ?_)
      refine wp_bind.mpr (wp_exceptionCheck h.up ?_)
      cases p' with
      | true =>
        obtain rfl := hobject rfl
        simpa using hraised className true
      | false =>
        refine wp_bind.mpr (wp_takeString h.up rfl ?_)
        intro text p'' hp''
        exact hread _ p'' hp''

theorem wp_takeFaultOnce {describe : Bool} {Q : Attempt → Ledger → Prop} (h : Usable d strict ℓ)
    (hread : ∀ fault p, (strict → p = false) → Q (.read fault) { ℓ with pending := p })
    (hraised : ∀ className p, Q (.raised className) { ℓ with pending := p }) :
    (takeFaultOnce d describe).wp (rules strict) Q ℓ := by
  rw [takeFaultOnce_eq]
  refine wp_bind.mpr (wp_exceptionOccurred h.up ?_)
  intro err
  cases describe with
  | false => exact wp_readHeld h hread hraised err ℓ.pending
  | true =>
    refine wp_bind.mpr (wp_exceptionDescribe h.up ?_)
    intro p
    exact wp_readHeld h hread hraised err p

theorem wp_takeFaultWithin {describe : Bool} {attempts : Nat}
    {firstClass : Option (Option String)} {Q : ManagedFault → Ledger → Prop}
    (h : Usable d strict ℓ)
    (hQ : ∀ fault p, (strict → p = false) → Q fault { ℓ with pending := p }) :
    (takeFaultWithin d describe attempts firstClass).wp (rules strict) Q ℓ := by
  induction attempts generalizing ℓ firstClass with
  | zero =>
    unfold takeFaultWithin
    exact wp_bind.mpr (wp_exceptionClear h.up (hQ _ false fun _ => rfl))
  | succ attempts ih =>
    unfold takeFaultWithin
    refine wp_bind.mpr (wp_takeFaultOnce h ?_ ?_)
    · intro fault p hp
      exact hQ fault p hp
    · intro className p
      exact ih (h.shift ℓ.locals p) hQ

theorem wp_takeFault {describe : Bool} {Q : ManagedFault → Ledger → Prop} (h : Usable d strict ℓ)
    (hQ : ∀ fault p, (strict → p = false) → Q fault { ℓ with pending := p }) :
    (takeFault d describe).wp (rules strict) Q ℓ := by
  unfold takeFault
  refine wp_bind.mpr (wp_exceptionCheck h.up ?_)
  cases hpending : ℓ.pending with
  | true => exact wp_takeFaultWithin h hQ
  | false =>
    have hdone := hQ { message := noPendingFaultMessage } ℓ.pending fun _ => hpending
    exact hdone

namespace Context

theorem wp_fault {Q : ManagedFault → Ledger → Prop} (h : Usable ctx.descriptors strict ℓ)
    (hQ : ∀ fault p, (strict → p = false) → Q fault { ℓ with pending := p }) :
    ctx.fault.wp (rules strict) Q ℓ :=
  wp_bind.mpr (wp_takeFault h hQ)

theorem wp_checkFault {Q : Unit → Ledger → Prop} {E : BridgeError → Ledger → Prop}
    (h : Usable ctx.descriptors strict ℓ)
    (hclear : ℓ.pending = false → Q () ℓ)
    (hfault : ℓ.pending = true → ∀ e p, (strict → p = false) → E e { ℓ with pending := p }) :
    Operation.wp (rules strict) ctx.checkFault Q E ℓ := by
  unfold checkFault
  refine Operation.wp_lift_bind.mpr (wp_exceptionCheck h.up ?_)
  cases hpending : ℓ.pending with
  | false => exact hclear hpending
  | true =>
    refine Operation.wp_lift_bind.mpr (wp_fault h ?_)
    intro fault p hp
    exact hfault hpending _ p hp

/-! ## Attaching and strings -/

theorem wp_contextAttach {Q : Unit → Ledger → Prop} {E : BridgeError → Ledger → Prop}
    (hup : ℓ.destroys = 0) (hclear : strict → ℓ.pending = false)
    (hok : ∀ p, (strict → p = false) → Q () { ℓ with pending := p })
    (hrefused : ∀ e p, (strict → p = false) → E e { ℓ with pending := p }) :
    Operation.wp (rules strict) attach Q E ℓ := by
  unfold attach
  refine Operation.wp_lift_bind.mpr (wp_attach hup ?_ ?_)
  · intro p hp _
    exact hok p (clear_of_clear hclear hp)
  · intro code p hp _
    exact hrefused _ p (clear_of_clear hclear hp)

theorem wp_newString {text : String} {Q : Ref → Ledger → Prop} {E : BridgeError → Ledger → Prop}
    (h : Usable ctx.descriptors strict ℓ) (hclear : strict → ℓ.pending = false)
    (hok : ∀ str p, (strict → p = false) →
      Q str { ℓ with locals := ℓ.locals + held str, pending := p })
    (herror : ∀ e p, (strict → p = false) → E e { ℓ with pending := p }) :
    Operation.wp (rules strict) (ctx.newString text) Q E ℓ := by
  unfold newString
  split
  · exact herror _ ℓ.pending hclear
  · refine Operation.wp_lift_bind.mpr (Script.wp_newString h.up hclear ?_)
    intro str p hobject
    cases hnull : str.isNull with
    | false =>
      exact hok str p fun _ => clear_of_object hobject hnull
    | true =>
      obtain rfl := Ref.isNull_iff.mp hnull
      -- no string came: with an exception that is its fault, without one it is no string
      refine Operation.wp_lift_bind.mpr (wp_exceptionCheck h.up ?_)
      cases p with
      | false =>
        refine Operation.wp_throw.mpr ?_
        simpa using herror _ false fun _ => rfl
      | true =>
        refine Operation.wp_lift_bind.mpr (wp_fault (h.shift _ true) ?_)
        intro fault p hp
        refine Operation.wp_throw.mpr ?_
        simpa using herror _ p hp

theorem wp_nameString {name : Option String} {Q : Ref → Ledger → Prop}
    {E : BridgeError → Ledger → Prop}
    (h : Usable ctx.descriptors strict ℓ) (hclear : strict → ℓ.pending = false)
    (hok : ∀ str p, (strict → p = false) →
      Q str { ℓ with locals := ℓ.locals + held str, pending := p })
    (herror : ∀ e p, (strict → p = false) → E e { ℓ with pending := p }) :
    Operation.wp (rules strict) (ctx.nameString name) Q E ℓ := by
  cases name with
  | none =>
    refine Operation.wp_pure.mpr ?_
    simpa using hok .null ℓ.pending hclear
  | some name => exact wp_newString h hclear hok herror

end Context

/-! ## Opening instances and caches -/

/-- A reference is made durable, and the local one given back whether or not that succeeds. -/
theorem Handle.wp_promote {found : Ref} {cls : TargetClass} {L : Multiset Ref}
    {Q : Handle → Ledger → Prop} {E : BridgeError → Ledger → Prop}
    (h : Usable ctx.descriptors strict ℓ) (hlocals : ℓ.locals = L + held found)
    (hclear : strict → ℓ.pending = false)
    (hok : ∀ target classes, target.isNull = false → ℓ.classes ⊆ classes →
      Q { target, cls } { ℓ with
        locals := L, globals := ℓ.globals + held target, classes, pending := false })
    (herror : ∀ e p, (strict → p = false) → E e { ℓ with locals := L, pending := p }) :
    Operation.wp (rules strict) (promote ctx found cls) Q E ℓ := by
  unfold promote
  cases hfound : found.isNull with
  | true =>
    obtain rfl := Ref.isNull_iff.mp hfound
    have hsame : ℓ.locals = L := by simpa using hlocals
    -- a null reference is refused before anything is asked
    have hdone := herror (.protocolViolation .nullPromotion) ℓ.pending hclear
    rw [← hsame] at hdone
    exact hdone
  | false =>
    refine Operation.wp_lift_bind.mpr ?_
    refine wp_newGlobalRef h.up (Ledger.holds_of_held hlocals) hclear ?_
    intro target p hobject
    refine Operation.wp_lift_bind.mpr (wp_deleteLocalRef h.up hlocals ?_)
    cases htarget : target.isNull with
    | false =>
      obtain rfl : p = false := clear_of_object hobject htarget
      exact hok target _ htarget (Ledger.subset_learn ℓ.classes (.newGlobalRef found) target)
    | true =>
      obtain rfl := Ref.isNull_iff.mp htarget
      -- a null reference was made durable, so nothing was added to the ledger
      have herror' : ∀ e p, (strict → p = false) → E e { ℓ with
          locals := L
          globals := ℓ.globals + held .null
          classes := Ledger.learn ℓ.classes (.newGlobalRef found) .null
          pending := p } := by
        intro e p hp
        simpa using herror e p hp
      refine Operation.wp_lift_bind.mpr (wp_exceptionCheck h.up ?_)
      cases p with
      | false => exact herror' _ false fun _ => rfl
      | true =>
        refine Operation.wp_lift_bind.mpr (Context.wp_fault ?_ ?_)
        · exact ⟨h.up, by simpa using h.bound, by simpa using h.held⟩
        · intro fault p hp
          exact herror' _ p hp

namespace Instance

/-- Past this check there is an object and nothing is pending. -/
theorem wp_requireStarted {found : Ref} {L : Multiset Ref} {Q : Unit → Ledger → Prop}
    {E : BridgeError → Ledger → Prop} (h : Usable ctx.descriptors strict ℓ)
    (hlocals : ℓ.locals = L + held found) (hobject : ℓ.pending = true → found = .null)
    (hok : ℓ.pending = false → Q () ℓ)
    (herror : ∀ e p, (strict → p = false) → E e { ℓ with locals := L, pending := p }) :
    Operation.wp (rules strict) (requireStarted ctx found) Q E ℓ := by
  unfold requireStarted
  refine Operation.wp_lift_bind.mpr (wp_exceptionCheck h.up ?_)
  cases hpending : ℓ.pending with
  | true =>
    -- no object came with the exception, so only the exception has to go
    obtain rfl := hobject hpending
    have hsame : ℓ.locals = L := by simpa using hlocals
    refine Operation.wp_lift_bind.mpr (Context.wp_fault h ?_)
    intro fault p hp
    have hdone := herror (.startup fault) p hp
    rw [← hsame] at hdone
    exact hdone
  | false =>
    cases hfound : found.isNull with
    | true =>
      obtain rfl := Ref.isNull_iff.mp hfound
      have hsame : ℓ.locals = L := by simpa using hlocals
      have hdone := herror (.startup .noResult) ℓ.pending fun _ => hpending
      rw [← hsame] at hdone
      exact hdone
    | false => exact hok hpending

/-- What opening a handle leaves: one durable reference more, owned by the handle. -/
def Opened (ℓ : Ledger) (handle : Handle) (cls : TargetClass) (ℓ' : Ledger) : Prop :=
  handle.cls = cls ∧ handle.target.isNull = false ∧ ∃ classes, ℓ.classes ⊆ classes ∧
    ℓ' = { ℓ with globals := ℓ.globals + held handle.target, classes, pending := false }

/-- The object of an instance is entered and given back. -/
theorem wp_enter {found : Ref} {name : String} {L : Multiset Ref} {Q : Instance → Ledger → Prop}
    {E : BridgeError → Ledger → Prop} (h : Usable ctx.descriptors strict ℓ)
    (hlocals : ℓ.locals = L + held found) (hclear : strict → ℓ.pending = false)
    (hok : ∀ i ℓ', Opened { ℓ with locals := L } i.handle .processor ℓ' → Q i ℓ')
    (herror : ∀ e p, (strict → p = false) → E e { ℓ with locals := L, pending := p }) :
    Operation.wp (rules strict) (enter ctx found name) Q E ℓ := by
  unfold enter
  refine Operation.wp_lift_bind.mpr ?_
  refine wp_callStatic h.up (h.holds (by simp [classes])) ?_ hclear ?_ ?_
  · intro r hr
    have hr : r = found := by simpa [Call.argRefs, Arg.asObject?] using hr
    exact hr ▸ Ledger.holds_of_held hlocals
  · exact fun hs => h.bound.denotes hs ClassName.interopUtils Method.interop (by simp [looked])
  · intro processor p hobject
    -- the object of the instance goes first, the one of its processor is promoted
    have hboth : ℓ.locals + held processor = (L + held processor) + held found := by
      rw [hlocals, add_right_comm]
    refine Operation.wp_lift_bind.mpr (wp_deleteLocalRef h.up hboth ?_)
    refine Operation.wp_bind.mpr (wp_requireStarted (h.shift _ p) rfl hobject ?_ herror)
    intro hp
    refine Operation.wp_bind.mpr (Handle.wp_promote (h.shift _ p) rfl (fun _ => hp) ?_ herror)
    intro target classes htarget hclasses
    exact hok _ _ ⟨rfl, htarget, classes, hclasses, rfl⟩

/-- An instance is started: the strings that were made for it are given back on every path. -/
theorem wp_start {configPath name : String} {Q : Instance → Ledger → Prop}
    {E : BridgeError → Ledger → Prop} (h : Usable ctx.descriptors strict ℓ)
    (hclear : strict → ℓ.pending = false)
    (hok : ∀ i ℓ', Opened ℓ i.handle .processor ℓ' → Q i ℓ')
    (herror : ∀ e p, (strict → p = false) → E e { ℓ with pending := p }) :
    Operation.wp (rules strict) (Instance.start ctx configPath name) Q E ℓ := by
  unfold Instance.start
  refine Operation.wp_bind.mpr (Context.wp_contextAttach h.up hclear ?_ herror)
  intro p hp
  refine Operation.wp_bind.mpr (Context.wp_newString (h.shift _ p) hp ?_ herror)
  intro config p hp
  refine Operation.wp_bind.mpr (Operation.wp_tryCatch.mpr ?_)
  refine Context.wp_nameString (h.shift _ p) hp ?_ ?_
  · intro nameRef p hp
    -- the two strings are given back in the order in which they were made
    have hconfig : ℓ.locals + held config + held nameRef =
        (ℓ.locals + held nameRef) + held config := add_right_comm _ _ _
    refine Operation.wp_lift_bind.mpr ?_
    refine wp_callStatic h.up ((h.shift _ p).holds (by simp [classes])) ?_ hp ?_ ?_
    · intro r hr
      have hr : r = config ∨ r = nameRef ∨ r = .null := by
        simpa [Call.argRefs, Arg.asObject?] using hr
      rcases hr with rfl | rfl | rfl
      · exact Ledger.holds_of_held hconfig
      · exact Ledger.holds_of_held rfl
      · exact Ledger.holds_null _
    · exact fun hs =>
        h.bound.denotes hs ClassName.ignitionEx Method.startWithClosure (by simp [looked])
    · intro found p hobject
      have hfirst : ℓ.locals + held config + held nameRef + held found =
          (ℓ.locals + held nameRef + held found) + held config := by
        rw [hconfig, add_right_comm]
      refine Operation.wp_lift_bind.mpr (wp_deleteLocalRef h.up hfirst ?_)
      refine Operation.wp_lift_bind.mpr (wp_deleteLocalRef h.up (add_right_comm _ _ _) ?_)
      refine Operation.wp_bind.mpr (wp_requireStarted (h.shift _ p) rfl hobject ?_ herror)
      intro hp
      exact wp_enter (h.shift _ p) rfl (fun _ => hp) hok herror
  · intro e p hp
    -- the name could not be made: the first string still has to be given back
    refine Operation.wp_lift_bind.mpr (wp_deleteLocalRef h.up rfl ?_)
    exact herror e p hp

/-- A running instance is found. -/
theorem wp_find {name : String} {Q : Instance → Ledger → Prop} {E : BridgeError → Ledger → Prop}
    (h : Usable ctx.descriptors strict ℓ) (hclear : strict → ℓ.pending = false)
    (hok : ∀ i ℓ', Opened ℓ i.handle .processor ℓ' → Q i ℓ')
    (herror : ∀ e p, (strict → p = false) → E e { ℓ with pending := p }) :
    Operation.wp (rules strict) (Instance.find ctx name) Q E ℓ := by
  unfold Instance.find
  refine Operation.wp_bind.mpr (Context.wp_contextAttach h.up hclear ?_ herror)
  intro p hp
  refine Operation.wp_bind.mpr (Context.wp_nameString (h.shift _ p) hp ?_ herror)
  intro nameRef p hp
  refine Operation.wp_lift_bind.mpr ?_
  refine wp_callStatic h.up ((h.shift _ p).holds (by simp [classes])) ?_ hp ?_ ?_
  -- the name is the only reference that is passed
  · intro r hr
    have hr : r = nameRef := by simpa [Call.argRefs, Arg.asObject?] using hr
    exact hr ▸ Ledger.holds_of_held rfl
  · exact fun hs => h.bound.denotes hs ClassName.ignition Method.ignite (by simp [looked])
  · intro found p hobject
    refine Operation.wp_lift_bind.mpr (wp_deleteLocalRef h.up (add_right_comm _ _ _) ?_)
    refine Operation.wp_bind.mpr (wp_requireStarted (h.shift _ p) rfl hobject ?_ herror)
    intro hp
    exact wp_enter (h.shift _ p) rfl (fun _ => hp) hok herror

/-- A cache of an instance is looked up. Without a context nothing happens. -/
theorem wp_cache {i : Instance} {current : Option Context} {name : Option String}
    {Q : Cache → Ledger → Prop} {E : BridgeError → Ledger → Prop}
    (h : ∀ ctx, current = some ctx → Usable ctx.descriptors strict ℓ ∧ ℓ.Holds i.handle.target)
    (hclear : strict → ℓ.pending = false)
    (hok : ∀ c ℓ', current.isSome → Opened ℓ c.handle .cache ℓ' → Q c ℓ')
    (herror : ∀ e p, (strict → p = false) → E e { ℓ with pending := p }) :
    Operation.wp (rules strict) (i.cache current name) Q E ℓ := by
  unfold Instance.cache
  cases current with
  | none => exact herror .runtimeTornDown ℓ.pending hclear
  | some ctx =>
    obtain ⟨h, htarget⟩ := h ctx rfl
    refine Operation.wp_bind.mpr (Operation.wp_pure.mpr ?_)
    refine Operation.wp_bind.mpr (Context.wp_contextAttach h.up hclear ?_ herror)
    intro p hp
    refine Operation.wp_bind.mpr (Context.wp_nameString (h.shift _ p) hp ?_ herror)
    intro nameRef p hp
    refine Operation.wp_lift_bind.mpr ?_
    refine wp_callObject h.up ?_ ?_ hp ?_ ?_
    · rcases htarget with hnull | hmem | hmem
      · exact .inl hnull
      · exact .inr (.inl (Multiset.mem_add.mpr (.inl hmem)))
      · exact .inr (.inr hmem)
    · intro r hr
      have hr : r = nameRef := by simpa [Call.argRefs, Arg.asObject?] using hr
      exact hr ▸ Ledger.holds_of_held rfl
    · exact fun hs => h.bound.denotes hs ClassName.interopProcessor Method.cache (by simp [looked])
    · intro found p hobject
      refine Operation.wp_lift_bind.mpr (wp_deleteLocalRef h.up (add_right_comm _ _ _) ?_)
      refine Operation.wp_bind.mpr (Context.wp_checkFault (h.shift _ p) ?_ ?_)
      · intro hp
        -- a look-up may find nothing without raising
        cases hfound : found.isNull with
        | true =>
          obtain rfl := Ref.isNull_iff.mp hfound
          refine Operation.wp_throw.mpr ?_
          simpa using herror (.targetUnavailable (.cache name i.name)) p fun _ => hp
        | false =>
          refine Operation.wp_bind.mpr (Handle.wp_promote (h.shift _ p) rfl (fun _ => hp) ?_ herror)
          intro target classes htarget hclasses
          exact hok _ _ rfl ⟨rfl, htarget, classes, hclasses, rfl⟩
      · intro hp e p' hp'
        obtain rfl := hobject hp
        simpa using herror e p' hp'

end Instance

/-! ## Calls on targets -/

/-- A check that is passed says that the target has the class of the opcode. -/
theorem cls_of_check {op : Opcode} {target : TargetClass} {shape : Shape}
    (h : op.check target shape = .ok ()) : op.targetClass = target := by
  unfold Opcode.check at h
  split at h
  · exact absurd h nofun
  · rename_i hsame
    exact not_not.mp hsame

/-- The methods of a target may be called through the class of a cache. -/
theorem Descriptors.Bound.through (h : d.Bound strict ℓ.classes) (hs : strict) (spec : MethodSpec)
    {id : MethodId} (hlooked : (ClassName.interopTarget, spec, id) ∈ d.looked)
    (hinstance : spec.isStatic = false) : ℓ.Through d.interopCache id := by
  obtain ⟨entry, hentry, hspec, hsub⟩ := Managed.findMethod_eq_some (h.methods hs _ hlooked)
  have hparent : Managed.superclass ClassName.interopCache = some ClassName.interopTarget := by
    decide
  exact ⟨entry, ClassName.interopCache, hentry, by rw [hspec, hinstance],
    h.known _ (by simp [named]), Managed.isSubclass_of_superclass hparent hsub⟩

namespace Handle

/-- What a call through a handle needs: a live context can be used, and the target is held. -/
def Reaches (h : Handle) (current : Option Context) (strict : Prop) (ℓ : Ledger) : Prop :=
  ∀ ctx, current = some ctx → Usable ctx.descriptors strict ℓ ∧ h.target ∈ ℓ.globals

variable {h : Handle} {current : Option Context} {op : Opcode} {input : Codec.Writer}
  {E : BridgeError → Ledger → Prop}

theorem dispatchClass_of_cache (hcls : h.cls = .cache) (ctx : Context) :
    h.dispatchClass ctx = ctx.descriptors.interopCache := by
  rw [dispatchClass, hcls]

/-- A call is prepared: past this point there is a context and the target is a cache. -/
theorem wp_prepare {shape : Shape} {Q : Context × List Arg → Ledger → Prop}
    (hup : ℓ.destroys = 0) (hclear : strict → ℓ.pending = false)
    (hok : ∀ ctx args p, current = some ctx → h.cls = .cache → Call.argRefs args = [] →
      (strict → p = false) → Q (ctx, args) { ℓ with pending := p })
    (herror : ∀ e p, (strict → p = false) → E e { ℓ with pending := p }) :
    Operation.wp (rules strict) (h.prepare current op shape input) Q E ℓ := by
  unfold prepare
  refine Operation.wp_bind.mpr (Operation.wp_liftExcept.mpr ?_)
  cases hcheck : op.check h.cls shape with
  | error e => exact herror e ℓ.pending hclear
  | ok _ =>
    -- every opcode belongs to the class of caches
    have hcls : h.cls = .cache := by
      rw [← cls_of_check hcheck]
      cases op <;> rfl
    cases hcurrent : current with
    | none => exact herror _ ℓ.pending hclear
    | some ctx =>
      refine Operation.wp_bind.mpr (Operation.wp_pure.mpr ?_)
      refine Operation.wp_bind.mpr (Context.wp_contextAttach hup hclear ?_ herror)
      intro p hp
      refine Operation.wp_bind.mpr (Operation.wp_liftExcept.mpr ?_)
      unfold wireArgs
      split
      · rename_i args hargs
        split at hargs
        · obtain rfl := Except.ok.inj hargs
          exact hok ctx _ p hcurrent hcls rfl hp
        · exact absurd hargs nofun
      · exact herror _ p hp

/-- A call that passes its checks is made on a live context with a held target, through the class that
its caches share. -/
theorem wp_prepared {shape : Shape} {α : Type} {f : Context × List Arg → Operation α}
    {Q : α → Ledger → Prop} (hreach : h.Reaches current strict ℓ) (hup : ℓ.destroys = 0)
    (hclear : strict → ℓ.pending = false)
    (hcall : ∀ ctx args p, current = some ctx → Usable ctx.descriptors strict ℓ →
      h.target ∈ ℓ.globals → h.dispatchClass ctx = ctx.descriptors.interopCache →
      Call.argRefs args = [] → (strict → p = false) →
      Operation.wp (rules strict) (f (ctx, args)) Q E { ℓ with pending := p })
    (herror : ∀ e p, (strict → p = false) → E e { ℓ with pending := p }) :
    Operation.wp (rules strict) (h.prepare current op shape input >>= f) Q E ℓ := by
  refine Operation.wp_bind.mpr (wp_prepare hup hclear ?_ herror)
  intro ctx args p hcurrent hcls hargs hp
  obtain ⟨husable, htarget⟩ := hreach ctx hcurrent
  exact hcall ctx args p hcurrent husable htarget (dispatchClass_of_cache hcls ctx) hargs hp

/-- A call that waits for a 32-bit reply. -/
theorem wp_inOp {Q : Int32 → Ledger → Prop} (hreach : h.Reaches current strict ℓ)
    (hup : ℓ.destroys = 0) (hclear : strict → ℓ.pending = false)
    (hok : ∀ reply, current.isSome → Q reply { ℓ with pending := false })
    (herror : ∀ e p, (strict → p = false) → E e { ℓ with pending := p }) :
    Operation.wp (rules strict) (h.inOp current op input) Q E ℓ := by
  unfold inOp
  refine wp_prepared hreach hup hclear ?_ herror
  rintro ctx args p rfl husable htarget hthrough hargs hp
  refine Operation.wp_lift_bind.mpr ?_
  rw [hthrough]
  refine wp_callValue (.inl rfl) husable.up (Ledger.holds_of_globals htarget)
    (husable.holds (by simp [classes])) (by simp [hargs]) hp ?_ ?_
  · exact fun hs => husable.bound.through hs Method.inOp (by simp [looked]) rfl
  · intro reply p
    refine Operation.wp_bind.mpr (Context.wp_checkFault (husable.shift _ p) ?_ fun _ => herror)
    rintro rfl
    exact hok reply rfl

/-- A call that waits for a 64-bit reply. -/
theorem wp_inOutOp {Q : UInt64 → Ledger → Prop} (hreach : h.Reaches current strict ℓ)
    (hup : ℓ.destroys = 0) (hclear : strict → ℓ.pending = false)
    (hok : ∀ reply, current.isSome → Q reply { ℓ with pending := false })
    (herror : ∀ e p, (strict → p = false) → E e { ℓ with pending := p }) :
    Operation.wp (rules strict) (h.inOutOp current op input) Q E ℓ := by
  unfold inOutOp
  refine wp_prepared hreach hup hclear ?_ herror
  rintro ctx args p rfl husable htarget hthrough hargs hp
  refine Operation.wp_lift_bind.mpr ?_
  rw [hthrough]
  refine wp_callValue (.inr (.inl rfl)) husable.up (Ledger.holds_of_globals htarget)
    (husable.holds (by simp [classes])) (by simp [hargs]) hp ?_ ?_
  · exact fun hs => husable.bound.through hs Method.inOutOp (by simp [looked]) rfl
  · intro reply p
    refine Operation.wp_bind.mpr (Context.wp_checkFault (husable.shift _ p) ?_ fun _ => herror)
    rintro rfl
    exact hok _ rfl

/-- A call whose completion comes later. -/
theorem wp_inOutOpAsync {callback : Callback} {data : UInt64} {Q : Unit → Ledger → Prop}
    (hreach : h.Reaches current strict ℓ) (hup : ℓ.destroys = 0)
    (hclear : strict → ℓ.pending = false)
    (hok : current.isSome → Q () { ℓ with pending := false })
    (herror : ∀ e p, (strict → p = false) → E e { ℓ with pending := p }) :
    Operation.wp (rules strict) (h.inOutOpAsync current op input callback data) Q E ℓ := by
  unfold inOutOpAsync
  refine wp_prepared hreach hup hclear ?_ herror
  rintro ctx args p rfl husable htarget hthrough hargs hp
  refine Operation.wp_lift_bind.mpr ?_
  rw [hthrough]
  -- callback and data are numbers, not references
  have hwire : ∀ r ∈ Call.argRefs (args ++ [.long (.callback callback), .long (.ofNat64 data)]),
      ({ ℓ with pending := p } : Ledger).Holds r := by
    rw [Call.argRefs, List.filterMap_append, show args.filterMap (·.asObject?) = [] from hargs]
    simp [Arg.asObject?]
  refine wp_callValue (.inr (.inr rfl)) husable.up (Ledger.holds_of_globals htarget)
    (husable.holds (by simp [classes])) hwire hp ?_ ?_
  · exact fun hs => husable.bound.through hs Method.inOutOpAsync (by simp [looked]) rfl
  · intro _ p
    refine Context.wp_checkFault (husable.shift _ p) ?_ fun _ => herror
    rintro rfl
    exact hok rfl

/-- A call that passes its check fails without a context, before anything is asked. -/
theorem prepare_none {shape : Shape} (hcheck : op.check h.cls shape = .ok ()) :
    h.prepare none op shape input = throw .runtimeTornDown := by
  unfold prepare
  rw [hcheck]
  rfl

/-- The calls of a handle that pass their checks, with the context as it is, all fail for want of one,
and ask nothing. -/
structure Orphaned (h : Handle) (current : Option Context) : Prop where
  inOp : ∀ op input, op.check h.cls .inOp = .ok () →
    h.inOp current op input = throw .runtimeTornDown
  inOutOp : ∀ op input, op.check h.cls .inOut = .ok () →
    h.inOutOp current op input = throw .runtimeTornDown
  inOutOpAsync : ∀ op input callback data, op.check h.cls .inOutAsync = .ok () →
    h.inOutOpAsync current op input callback data = throw .runtimeTornDown

theorem orphaned (h : Handle) : h.Orphaned none where
  inOp := by
    intro op input hcheck
    unfold Handle.inOp
    rw [prepare_none hcheck]
    rfl
  inOutOp := by
    intro op input hcheck
    unfold Handle.inOutOp
    rw [prepare_none hcheck]
    rfl
  inOutOpAsync := by
    intro op input callback data hcheck
    unfold Handle.inOutOpAsync
    rw [prepare_none hcheck]
    rfl

/-! ## Giving back -/

/-- A handle gives its reference back where its thread may attach; else the reference stays. -/
theorem wp_release {G : Multiset Ref} {Q : Bool → Ledger → Prop} (hup : ℓ.destroys = 0)
    (hclear : strict → ℓ.pending = false) (hglobals : ℓ.globals = G + held h.target)
    (hok : ∀ p, (strict → p = false) → (strict → ℓ.launches = 0 → ℓ.admits = true) →
      Q true { ℓ with globals := G, pending := p })
    (hrefused : ∀ p, (strict → p = false) → (strict → ℓ.launches = 0 → ℓ.admits = false) →
      Q false { ℓ with pending := p }) :
    (h.release (some ctx)).wp (rules strict) Q ℓ := by
  unfold release
  refine wp_bind.mpr (wp_attach hup ?_ ?_)
  · intro p hp hadmits
    exact wp_bind.mpr (wp_deleteGlobalRef hup hglobals (hok p (clear_of_clear hclear hp) hadmits))
  · intro code p hp hadmits
    exact hrefused p (clear_of_clear hclear hp) hadmits

end Handle

/-- A context that is torn down gives its class references back where the thread may attach, and the
runtime is destroyed in any case. -/
theorem Context.wp_tearDown {G : Multiset Ref} {Q : Unit → Ledger → Prop}
    (h : Usable ctx.descriptors strict ℓ) (hglobals : ℓ.globals = G + ctx.descriptors.classes)
    (hclear : strict → ℓ.pending = false)
    (hok : ∀ p, (strict → p = false) → (strict → ℓ.launches = 0 → ℓ.admits = true) →
      Q () { ℓ with globals := G, destroys := 1, pending := p })
    (hrefused : ∀ p, (strict → p = false) → (strict → ℓ.launches = 0 → ℓ.admits = false) →
      Q () { ℓ with destroys := 1, pending := p }) :
    ctx.tearDown.wp (rules strict) Q ℓ := by
  unfold tearDown
  refine wp_bind.mpr (wp_attach h.up ?_ ?_)
  · intro p hp hadmits
    -- what is pending is cleared first, so that nothing is when the runtime goes down
    have hrest : ∀ p, (strict → p = false) → Script.wp (rules strict) (do
        ctx.descriptors.release
        Script.ask .destroy) Q { ℓ with pending := p } := by
      intro p hp
      refine wp_bind.mpr (wp_release h.up h.bound.nonNull hglobals ?_)
      refine wp_destroy h.up fun p' hp' => hok p' (clear_of_clear hp hp') hadmits
    refine wp_bind.mpr (wp_exceptionCheck h.up ?_)
    cases p with
    | false => exact hrest false fun _ => rfl
    | true => exact wp_bind.mpr (wp_exceptionClear h.up (hrest false fun _ => rfl))
  · intro code p hp hadmits
    refine wp_destroy h.up fun p' hp' => ?_
    exact hrefused p' (clear_of_clear (clear_of_clear hclear hp) hp') hadmits

end GridBridge.Bridge
