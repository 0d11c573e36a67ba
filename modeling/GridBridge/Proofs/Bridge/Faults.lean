import GridBridge.Bridge.PendingFault
import GridBridge.Proofs.Seam.Ledger
import GridBridge.Proofs.Seam.Makes

/-!
# Faults: reading an exception keeps the ledger balanced

One lemma for each script that takes a pending exception off the thread. They say that a script gives
back every reference that it was handed on the way, and under the strict rules that nothing is
pending when it ends. Before that, `looking_takeFault` lists the calls that such a script makes.
-/

namespace GridBridge.Bridge

open Protocol Seam Seam.Script

/-! ## One look -/

/-- The end of a look: the exception is held, and its class name was read. -/
def readMessage (d : Descriptors) (err : Ref) (className : Option String) : Script Attempt := do
  let message ← Script.ask (.callObject err d.throwableGetMessage [])
  Script.ask (.deleteLocalRef err)
  if ← Script.ask .exceptionCheck then return .raised className
  let text ← takeString message
  return .read { message := text.getD unknownFaultMessage, className }

/-- What is left of a look once the exception is held: it is cleared, and then read. -/
def readHeld (d : Descriptors) (err : Ref) : Script Attempt := do
  Script.ask .exceptionClear
  let className ← classNameOf d.classGetName err
  readMessage d err className

/-- A look begins by holding the exception and, where that is asked for, showing it in the log. -/
theorem takeFaultOnce_eq (d : Descriptors) (describe : Bool) :
    takeFaultOnce d describe = (do
      let err ← Script.ask .exceptionOccurred
      if describe then Script.ask .exceptionDescribe
      readHeld d err) := rfl

/-! ## The calls of a look -/

section Looking

variable {d : Descriptors} {accessors : List MethodId} {told : ManagedFault → Prop}

/-- Calls that only look at an exception: they read classes and texts, with these accessors, and give
local references back. -/
def Looking (accessors : List MethodId) : Call → Prop
  | .exceptionCheck | .exceptionOccurred | .exceptionDescribe | .exceptionClear
  | .getObjectClass _ | .getString _ | .deleteLocalRef _ => True
  | .callObject _ method _ => method ∈ accessors
  | _ => False

/-- A text is read and its reference given back. -/
theorem looking_takeString (str : Ref) : (takeString str).Makes (Looking accessors) told := by
  unfold takeString
  split
  · exact .pure none
  · exact .bind (.ask trivial) fun text => .bind (.ask trivial) fun _ => .pure text

/-- So it is where an exception is cleared instead. -/
theorem looking_takeStringOrClear (str : Ref) :
    (takeStringOrClear str).Makes (Looking accessors) told := by
  refine .bind (.ask trivial) fun raised => ?_
  split
  · exact .bind (.ask trivial) fun _ => .pure none
  · exact looking_takeString str

/-- The name of a class is read with one of the accessors. -/
theorem looking_classNameOf {getName : MethodId} (hknown : getName ∈ accessors) (obj : Ref) :
    (classNameOf getName obj).Makes (Looking accessors) told := by
  refine .bind (.ask trivial) fun cls => ?_
  split
  · exact .pure none
  · exact .bind (.ask hknown) fun name =>
      .bind (.ask trivial) fun _ => looking_takeStringOrClear name

/-- An exception that is held is read with the two accessors of the descriptors. -/
theorem looking_readHeld (err : Ref) :
    (readHeld d err).Makes (Looking [d.classGetName, d.throwableGetMessage]) told := by
  have hmessage (className : Option String) : (readMessage d err className).Makes
      (Looking [d.classGetName, d.throwableGetMessage]) told := by
    refine .bind (.ask (by simp [Looking])) fun message => .bind (.ask trivial) fun _ => ?_
    refine .bind (.ask trivial) fun raised => ?_
    split
    · exact .pure _
    · exact .bind (looking_takeString message) fun text => .pure _
  exact .bind (.ask trivial) fun _ =>
    .bind (looking_classNameOf (List.mem_cons_self ..) err) hmessage

theorem looking_takeFaultOnce (describe : Bool) :
    (takeFaultOnce d describe).Makes (Looking [d.classGetName, d.throwableGetMessage]) told := by
  rw [takeFaultOnce_eq]
  refine .bind (.ask trivial) fun err => ?_
  cases describe with
  | false => exact looking_readHeld err
  | true => exact .bind (.ask trivial) fun _ => looking_readHeld err

/-- Many looks are looks, by induction on how many are left. -/
theorem looking_takeFaultWithin (describe : Bool) (attempts : Nat)
    (firstClass : Option (Option String)) :
    (takeFaultWithin d describe attempts firstClass).Makes
      (Looking [d.classGetName, d.throwableGetMessage]) told := by
  induction attempts generalizing firstClass with
  | zero => exact .bind (.ask trivial) fun _ => .pure _
  | succ attempts ih =>
    refine .bind (looking_takeFaultOnce describe) fun attempt => ?_
    cases attempt with
    | read fault => exact .pure fault
    | raised className => exact ih _

/-- **Taking a fault only looks**, and tells nobody. -/
theorem looking_takeFault (d : Descriptors) (describe : Bool) : (takeFault d describe).Makes
    (Looking [d.classGetName, d.throwableGetMessage]) told := by
  refine .bind (.ask trivial) fun raised => ?_
  split
  · exact looking_takeFaultWithin describe maxFaultAttempts none
  · exact .pure _

/-- An accessor that was not found is not asked. -/
theorem looking_readBy {accessor : Option MethodId} {read : MethodId → Script (Option String)}
    (hread : ∀ id, accessor = some id → (read id).Makes (Looking accessors) told) :
    (readBy accessor read).Makes (Looking accessors) told := by
  cases accessor with
  | some id => exact hread id rfl
  | none => exact .pure none

/-- The description of what stopped a start only looks, with what accessors there are. -/
theorem looking_describeStartupFault (classGetName throwableToString : Option MethodId) :
    (describeStartupFault classGetName throwableToString).Makes
      (Looking (classGetName.toList ++ throwableToString.toList)) told := by
  refine .bind (.ask trivial) fun raised => ?_
  split
  · exact .pure _
  · refine .bind (.ask trivial) fun err => .bind (.ask trivial) fun _ => ?_
    refine .bind (looking_readBy fun id hid => looking_classNameOf (by simp [hid]) err) fun _ => ?_
    refine .bind (looking_readBy fun id hid => ?_) fun _ => .bind (.ask trivial) fun _ => .pure _
    exact .bind (.ask (show id ∈ _ by simp [hid])) fun str => looking_takeStringOrClear str

end Looking

/-! ## The ledger -/

variable {strict : Prop} {ℓ : Ledger}

/-- A string result is read and given back. -/
theorem wp_takeString {str : Ref} {L : Multiset Ref} {Q : Option String → Ledger → Prop}
    (hup : ℓ.destroys = 0) (hlocals : ℓ.locals = L + held str)
    (hQ : ∀ text p, (strict → p = ℓ.pending) → Q text { ℓ with locals := L, pending := p }) :
    (takeString str).wp (rules strict) Q ℓ := by
  unfold takeString
  cases hnull : str.isNull with
  -- nothing came, so there is nothing to give back
  | true =>
    obtain rfl := Ref.isNull_iff.mp hnull
    have hsame : ℓ.locals = L := by simpa using hlocals
    have hdone := hQ none ℓ.pending fun _ => rfl
    rw [← hsame] at hdone
    exact hdone
  | false =>
    show Script.wp (rules strict) (ask (.getString str) >>= fun text =>
      ask (.deleteLocalRef str) >>= fun _ => pure text) Q ℓ
    refine wp_bind.mpr (wp_getString hup (Ledger.holds_of_held hlocals) ?_)
    intro text p hp
    exact wp_bind.mpr (wp_deleteLocalRef hup hlocals (hQ text p hp))

/-- A call that raised handed nothing out, so there is nothing to give back. -/
theorem wp_takeStringOrClear {str : Ref} {L : Multiset Ref} {Q : Option String → Ledger → Prop}
    (hup : ℓ.destroys = 0) (hlocals : ℓ.locals = L + held str)
    (hraised : ℓ.pending = true → str = .null)
    (hQ : ∀ text p, (strict → p = false) → Q text { ℓ with locals := L, pending := p }) :
    (takeStringOrClear str).wp (rules strict) Q ℓ := by
  unfold takeStringOrClear
  refine wp_bind.mpr (wp_exceptionCheck hup ?_)
  cases hpending : ℓ.pending with
  | true =>
    -- what raised gave no string, so clearing is all there is to do
    obtain rfl := hraised hpending
    have hsame : ℓ.locals = L := by simpa using hlocals
    refine wp_bind.mpr (wp_exceptionClear hup ?_)
    have hdone := hQ none false fun _ => rfl
    rw [← hsame] at hdone
    exact hdone
  | false =>
    refine wp_takeString hup hlocals ?_
    intro text p hp
    exact hQ text p fun hs => (hp hs).trans hpending

/-- The class name of an object is read, and nothing is kept of what was needed for it. -/
theorem wp_classNameOf {getName : MethodId} {obj : Ref} {Q : Option String → Ledger → Prop}
    (hup : ℓ.destroys = 0) (hobj : ℓ.Holds obj) (hclear : strict → ℓ.pending = false)
    (hname : strict → Ledger.Denotes getName false)
    (hQ : ∀ name p, (strict → p = false) → Q name { ℓ with pending := p }) :
    (classNameOf getName obj).wp (rules strict) Q ℓ := by
  unfold classNameOf
  refine wp_bind.mpr (wp_getObjectClass hup hobj hclear ?_)
  intro cls p hcls hp
  cases hnull : cls.isNull with
  | true =>
    obtain rfl := Ref.isNull_iff.mp hnull
    simpa using hQ none p fun hs => (hp hs).trans (hclear hs)
  | false =>
    -- the class was handed out as a local reference, and stays held until its name is read
    have hcall : ({ ℓ with locals := ℓ.locals + held cls, pending := p } : Ledger).Holds cls :=
      Ledger.holds_of_held rfl
    refine wp_bind.mpr (wp_callObject hup hcall nofun (fun hs => (hp hs).trans (hclear hs)) hname ?_)
    intro name p' hobject
    refine wp_bind.mpr (wp_deleteLocalRef hup (add_right_comm _ _ _) ?_)
    exact wp_takeStringOrClear hup rfl hobject hQ

/-- So is what a string accessor says of it. -/
theorem wp_textOf {accessor : MethodId} {obj : Ref} {Q : Option String → Ledger → Prop}
    (hup : ℓ.destroys = 0) (hobj : ℓ.Holds obj) (hclear : strict → ℓ.pending = false)
    (htext : strict → Ledger.Denotes accessor false)
    (hQ : ∀ text p, (strict → p = false) → Q text { ℓ with pending := p }) :
    (textOf accessor obj).wp (rules strict) Q ℓ := by
  unfold textOf
  refine wp_bind.mpr (wp_callObject hup hobj nofun hclear htext ?_)
  intro str p hobject
  exact wp_takeStringOrClear hup rfl hobject hQ

/-- Without an accessor nothing is asked. -/
theorem wp_readBy {accessor : Option MethodId} {read : MethodId → Script (Option String)}
    {Q : Option String → Ledger → Prop} (hclear : strict → ℓ.pending = false)
    (hread : ∀ id, accessor = some id → (read id).wp (rules strict) Q ℓ)
    (hQ : ∀ text p, (strict → p = false) → Q text { ℓ with pending := p }) :
    (readBy accessor read).wp (rules strict) Q ℓ := by
  cases accessor with
  | some id => exact hread id rfl
  | none => exact hQ none ℓ.pending hclear

/-- The exception of a failed start is read as far as it can be, and taken off the thread. -/
theorem wp_describeStartupFault {classGetName throwableToString : Option MethodId}
    {Q : Option String × Option String → Ledger → Prop} (hup : ℓ.destroys = 0)
    (hname : strict → ∀ id, classGetName = some id → Ledger.Denotes id false)
    (htext : strict → ∀ id, throwableToString = some id → Ledger.Denotes id false)
    (hQ : ∀ described p, (strict → p = false) → Q described { ℓ with pending := p }) :
    (describeStartupFault classGetName throwableToString).wp (rules strict) Q ℓ := by
  unfold describeStartupFault
  refine wp_bind.mpr (wp_exceptionCheck hup ?_)
  cases hpending : ℓ.pending with
  | false =>
    have hdone := hQ (none, none) ℓ.pending fun _ => hpending
    exact hdone
  | true =>
    refine wp_bind.mpr (wp_exceptionOccurred hup ?_)
    intro err
    refine wp_bind.mpr (wp_exceptionClear hup ?_)
    have herr : ∀ p, ({ ℓ with locals := ℓ.locals + held err, pending := p } : Ledger).Holds err :=
      fun _ => Ledger.holds_of_held rfl
    -- whatever was read, the exception is given back at the end
    have hlast : ∀ (className message : Option String) p, (strict → p = false) →
        Script.wp (rules strict) (do
          Script.ask (.deleteLocalRef err)
          return (className, message)) Q
          { ℓ with locals := ℓ.locals + held err, pending := p } := by
      intro className message p hp
      exact wp_bind.mpr (wp_deleteLocalRef hup rfl (hQ (className, message) p hp))
    have hmessage : ∀ (className : Option String) p, (strict → p = false) →
        Script.wp (rules strict) (do
          let message ← readBy throwableToString (textOf · err)
          Script.ask (.deleteLocalRef err)
          return (className, message)) Q
          { ℓ with locals := ℓ.locals + held err, pending := p } := by
      intro className p hp
      refine wp_bind.mpr (wp_readBy hp (fun toText htoText => ?_) (hlast className))
      exact wp_textOf hup (herr p) hp (fun hs => htext hs toText htoText) (hlast className)
    refine wp_bind.mpr (wp_readBy (fun _ => rfl) (fun getName hgetName => ?_) hmessage)
    exact wp_classNameOf hup (herr false) (fun _ => rfl) (fun hs => hname hs getName hgetName)
      hmessage

end GridBridge.Bridge
