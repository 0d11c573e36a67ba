import GridBridge.Proofs.Bridge.Exchange
import GridBridge.Proofs.Seam.Moment

/-!
# Verdicts: what is pending decides how an operation ends

The calls of an operation that do its work are its steps, and each step has its error
(`Call.blamed`). An operation **`Judges`** if its end depends on what its steps left pending and on
nothing else: as soon as one leaves an exception pending, whatever it answered, the exception is taken
off the thread and read, the error callback is told once of what was read, and the operation ends in the
error of that step, with nothing but references given back in between (`Translated`); and if no step
does, nothing is told and no error carries a class name (`Verdict.calm`).

The rules for `Judges` and `Copes` follow the operations call by call. **`Exchange.verdict`** is the
result for all of them.
-/

namespace GridBridge.Seam

/-- The error that an exception of a call becomes, where the call is a step of an operation. -/
def Call.blamed : Call → Option (ManagedFault → BridgeError)
  | .newString _ | .callObject .. | .callInt .. | .callLong .. | .callVoid .. => some .managedFault
  | .callStatic .. => some .startup
  | .newGlobalRef _ => some .promotion
  | _ => none

/-- The error of a step carries the fault that was read off the thread. -/
theorem Call.fault?_of_blamed {request : Call} {error : ManagedFault → BridgeError}
    (h : request.blamed = some error) (fault : ManagedFault) : (error fault).fault? = some fault := by
  cases request <;> first | (injection h with h; subst h; rfl) | exact absurd h nofun

namespace Moment

/-- The error of a step that left an exception pending. -/
def raised? (m : Moment) : Option (ManagedFault → BridgeError) :=
  match m.event, m.pending with
  | .called request _, true => request.blamed
  | _, _ => none

/-- The fault that the error callback was told of. -/
def told? (m : Moment) : Option ManagedFault :=
  match m.event with
  | .called _ _ => none
  | .reported fault => some fault

/-- The same of the moment of a step. -/
theorem fault?_of_raised {m : Moment} {error : ManagedFault → BridgeError}
    (h : m.raised? = some error) (fault : ManagedFault) : (error fault).fault? = some fault := by
  obtain ⟨event, pending⟩ := m
  cases event with
  | called request reply =>
    cases pending with
    | true => exact Call.fault?_of_blamed h fault
    | false => exact absurd h nofun
  | reported fault => exact absurd h nofun

/-- A step that raised is a call, and nothing is told by a call. -/
theorem told_of_raised {m : Moment} {error : ManagedFault → BridgeError}
    (h : m.raised? = some error) : m.told? = none := by
  obtain ⟨event, pending⟩ := m
  cases event with
  | called request reply => rfl
  | reported fault => exact absurd h nofun

/-- A local reference was given back. -/
def GivesBack (m : Moment) : Prop := ∃ r, m.event = .called (.deleteLocalRef r) ()

/-- No step left an exception pending, and nothing was told. -/
structure Calm (m : Moment) : Prop where
  raised : m.raised? = none
  told : m.told? = none

/-- Giving back a reference is no step, even where an exception is pending. -/
theorem calm_of_givesBack {m : Moment} (h : m.GivesBack) : m.Calm := by
  obtain ⟨event, pending⟩ := m
  obtain ⟨r, rfl⟩ := h
  cases pending <;> exact ⟨rfl, rfl⟩

/-- A call that left nothing pending is calm, step or no step. -/
theorem calm_of_clear {request : Call} {reply : request.Reply} :
    Moment.Calm ⟨.called request reply, false⟩ :=
  ⟨rfl, rfl⟩

/-- A call that is no step is calm whatever it left pending. -/
theorem calm_of_not_blamed {request : Call} {reply : request.Reply} {p : Bool}
    (h : request.blamed = none) : Moment.Calm ⟨.called request reply, p⟩ := by
  cases p
  · exact calm_of_clear
  · exact ⟨h, rfl⟩

end Moment

/-- The faults that the error callback was told of, in order. -/
def told (moments : List Moment) : List ManagedFault := moments.filterMap (·.told?)

theorem told_append (first second : List Moment) : told (first ++ second) = told first ++ told second :=
  List.filterMap_append

/-- What was told at the first moment comes first. -/
theorem told_cons (m : Moment) (rest : List Moment) :
    told (m :: rest) = m.told?.toList ++ told rest := by
  unfold told
  rw [List.filterMap_cons]
  cases m.told? <;> rfl

/-- As long as it is calm the callback is told nothing. -/
theorem told_of_calm {moments : List Moment} (h : ∀ m ∈ moments, m.Calm) : told moments = [] :=
  List.filterMap_eq_nil_iff.mpr fun m hm => (h m hm).told

end GridBridge.Seam

namespace GridBridge.Bridge

open Protocol Seam Seam.Script

variable {α β : Type} {current : Option Context} {p : Bool} {error : ManagedFault → BridgeError}

/-! ## Verdicts -/

/-- Without a fault of the managed side: what the error carries, if anything, has no class. -/
def Plain (e : BridgeError) : Prop := ∀ fault, e.fault? = some fault → fault.className = none

/-- What comes after a step that left an exception pending. References are given back, the exception is
taken off the thread and read, the error callback is told, and references are given back. -/
inductive Translated (current : Option Context) (fault : ManagedFault) : List Moment → Prop where
  | intro {ctx : Context} {gap reading back : List Moment} {q : Bool} (hlive : current = some ctx)
      (hgives : ∀ m ∈ gap, m.GivesBack)
      (hreads : (takeFault ctx.descriptors ctx.describeFaults).Passes true reading q fault)
      (hgivesBack : ∀ m ∈ back, m.GivesBack) :
      Translated current fault
        (gap ++ ⟨.called .exceptionCheck true, true⟩ :: (reading ++ ⟨.reported fault, q⟩ :: back))

/-- How an operation may end after these moments. -/
inductive Verdict (current : Option Context) : List Moment → Except BridgeError α → Prop where
  /-- No step left an exception pending. -/
  | calm {moments : List Moment} {outcome : Except BridgeError α} (hcalm : ∀ m ∈ moments, m.Calm)
      (hplain : ∀ e, outcome = .error e → Plain e) : Verdict current moments outcome
  /-- One did, and ended the operation. -/
  | raised {front rest : List Moment} {m : Moment} {error : ManagedFault → BridgeError}
      {fault : ManagedFault} (hcalm : ∀ m ∈ front, m.Calm) (hstep : m.raised? = some error)
      (htranslated : Translated current fault rest) :
      Verdict current (front ++ m :: rest) (.error (error fault))

/-- However the operation goes, it ends as its steps left it. -/
def Judges (current : Option Context) (op : Operation α) : Prop :=
  ∀ p moments q outcome, op.run.Passes p moments q outcome → Verdict current moments outcome

/-- The operation comes after a step, and copes with what that left: with an exception pending it ends
in this error, without it ends as its own steps left it. -/
def Copes (current : Option Context) (error : ManagedFault → BridgeError) (p : Bool)
    (op : Operation α) : Prop :=
  ∀ moments q outcome, op.run.Passes p moments q outcome →
    match p with
    | true => ∃ fault, outcome = .error (error fault) ∧ Translated current fault moments
    | false => Verdict current moments outcome

/-! ## Rules -/

/-- What comes after calm moments decides how they all end. -/
theorem Verdict.after {first second : List Moment} {outcome : Except BridgeError α}
    (h : Verdict current second outcome) (hcalm : ∀ m ∈ first, m.Calm) :
    Verdict current (first ++ second) outcome := by
  cases h with
  | calm hcalm' hplain =>
    exact .calm (fun m hm => (List.mem_append.mp hm).elim (hcalm m) (hcalm' m)) hplain
  | raised hcalm' hstep htranslated =>
    rw [← List.append_assoc]
    exact .raised (fun m hm => (List.mem_append.mp hm).elim (hcalm m) (hcalm' m)) hstep htranslated

/-- One calm moment ahead of the others changes nothing. -/
theorem Verdict.cons {m : Moment} {rest : List Moment} {outcome : Except BridgeError α}
    (h : Verdict current rest outcome) (hcalm : m.Calm) : Verdict current (m :: rest) outcome := by
  have hlonger : Verdict current ([m] ++ rest) outcome :=
    h.after fun m' hm => List.mem_singleton.mp hm ▸ hcalm
  exact hlonger

/-- The error of an operation is the error of what it is part of. -/
theorem Verdict.failed {moments : List Moment} {e : BridgeError}
    (h : Verdict (α := α) current moments (.error e)) :
    Verdict (α := β) current moments (.error e) := by
  generalize houtcome : (Except.error e : Except BridgeError α) = outcome at h
  cases h with
  | calm hcalm hplain =>
    subst houtcome
    exact .calm hcalm fun e' h => hplain e' (congrArg Except.error (Except.error.inj h))
  | raised hcalm hstep htranslated =>
    obtain rfl := Except.error.inj houtcome
    exact .raised hcalm hstep htranslated

/-- A reference is given back last. -/
theorem Verdict.givingBack {moments : List Moment} {m : Moment} {outcome : Except BridgeError α}
    (h : Verdict current moments outcome) (hgives : m.GivesBack) :
    Verdict current (moments ++ [m]) outcome := by
  cases h with
  | calm hcalm hplain =>
    -- no step raised: the reference that is given back raises nothing either
    refine .calm (fun m' hm => (List.mem_append.mp hm).elim (hcalm m') fun hm => ?_) hplain
    obtain rfl := List.mem_singleton.mp hm
    exact Moment.calm_of_givesBack hgives
  | @raised front rest step error fault hcalm hraised htranslated =>
    cases htranslated with
    | @intro ctx gap reading back q hlive hgaps hreads hbacks =>
      -- a step raised: the reference is one more of those that are given back at the end
      have hall : ∀ m' ∈ back ++ [m], m'.GivesBack := fun m' hm =>
        (List.mem_append.mp hm).elim (hbacks m') fun hm => List.mem_singleton.mp hm ▸ hgives
      have hlonger := Verdict.raised (α := α) hcalm hraised (Translated.intro hlive hgaps hreads hall)
      simpa using hlonger

/-- An operation that ends in a value has had no step that raised. -/
theorem Verdict.calm_of_ok {moments : List Moment} {value : α}
    (h : Verdict current moments (.ok value)) : ∀ m ∈ moments, m.Calm := by
  cases h with
  | calm hcalm hplain => exact hcalm

theorem judges_pure (value : α) : Judges current (pure value : Operation α) := by
  intro p moments q outcome hpasses
  obtain ⟨rfl, rfl, rfl⟩ := Passes.of_pure hpasses
  exact .calm (List.forall_mem_nil _) nofun

/-- An operation that refuses before it has made a call refuses with an error that carries no fault. -/
theorem judges_throw {e : BridgeError} (hplain : Plain e) :
    Judges current (throw e : Operation α) := by
  intro p moments q outcome hpasses
  obtain ⟨rfl, rfl, rfl⟩ := Passes.of_pure hpasses
  refine .calm (List.forall_mem_nil _) ?_
  rintro _ ⟨⟩
  exact hplain

/-- A check that makes no call either passes or refuses. -/
theorem judges_liftExcept {x : Except BridgeError α} (hplain : ∀ e, x = .error e → Plain e) :
    Judges current (liftExcept x : Operation α) := by
  cases x with
  | ok value => exact judges_pure value
  | error e => exact judges_throw (hplain e rfl)

/-- Operations in a row: if the first fails that is the end, and if it ends in a value it was calm. -/
theorem Judges.bind {op : Operation α} {f : α → Operation β} (hop : Judges current op)
    (hf : ∀ value, Judges current (f value)) : Judges current (op >>= f) := by
  intro p moments q outcome hpasses
  rcases Operation.passes_bind hpasses with ⟨e, rfl, hfirst⟩ | ⟨m₁, m₂, r, value, rfl, hfirst, hnext⟩
  · exact (hop p moments q _ hfirst).failed
  · exact (hf value r m₂ q outcome hnext).after (hop p m₁ r _ hfirst).calm_of_ok

/-- A call that is no step. -/
theorem judges_ask {request : Call} {f : request.Reply → Operation α} (h : request.blamed = none)
    (hf : ∀ reply, Judges current (f reply)) : Judges current (liftM (ask request) >>= f) := by
  intro p moments q outcome hpasses
  obtain ⟨reply, p', rest, rfl, _, hnext⟩ := Operation.passes_ask_bind hpasses
  exact (hf reply p' rest q outcome hnext).cons (Moment.calm_of_not_blamed h)

/-- A step, and something that copes with whatever it left. -/
theorem judges_step {request : Call} {f : request.Reply → Operation α}
    (h : request.blamed = some error)
    (hf : ∀ p reply p', InBand p request reply p' → Copes current error p' (f reply)) :
    Judges current (liftM (ask request) >>= f) := by
  intro p moments q outcome hpasses
  obtain ⟨reply, p', rest, rfl, hinBand, hnext⟩ := Operation.passes_ask_bind hpasses
  have hcopes := hf p reply p' hinBand rest q outcome hnext
  cases p' with
  | true =>
    obtain ⟨fault, rfl, htranslated⟩ := hcopes
    have hstep : Moment.raised? ⟨.called request reply, true⟩ = some error := h
    have hraised := Verdict.raised (α := α) (List.forall_mem_nil Moment.Calm) hstep htranslated
    exact hraised
  | false => exact Verdict.cons hcopes Moment.calm_of_clear

/-- A reference is given back before what was left is looked at. -/
theorem copes_deleteLocalRef {r : Ref} {f : Unit → Operation α} (h : Copes current error p (f ())) :
    Copes current error p (liftM (ask (.deleteLocalRef r)) >>= f) := by
  intro moments q outcome hpasses
  obtain ⟨_, p', rest, rfl, hinBand, hnext⟩ := Operation.passes_ask_bind hpasses
  obtain rfl : p' = p := hinBand.leaves
  have hcopes := h rest q outcome hnext
  cases p' with
  | true =>
    obtain ⟨fault, rfl, htranslated⟩ := hcopes
    refine ⟨fault, rfl, ?_⟩
    cases htranslated with
    | @intro ctx gap reading back q hlive hgives hreads hgivesBack =>
      have hmore : ∀ m ∈ ⟨.called (.deleteLocalRef r) (), true⟩ :: gap, m.GivesBack :=
        List.forall_mem_cons.mpr ⟨⟨r, rfl⟩, hgives⟩
      have hlonger := Translated.intro hlive hmore hreads hgivesBack
      exact hlonger
  | false => exact Verdict.cons hcopes Moment.calm_of_clear

/-- Without an exception left, an operation copes that ends as its own steps left it. -/
theorem Judges.copes {op : Operation α} (h : Judges current op) : Copes current error false op :=
  fun moments q outcome hpasses => h false moments q outcome hpasses

/-- Looks for an exception. If there is one it is taken, told and thrown, else this goes on. -/
theorem copes_check {ctx : Context} {f : Bool → Operation α} (hlive : current = some ctx)
    (hraised : f true = do
      let fault ← ctx.fault
      throw (error fault))
    (hclear : Judges current (f false)) :
    Copes current error p (liftM (ask .exceptionCheck) >>= f) := by
  intro moments q outcome hpasses
  obtain ⟨reply, p', rest, rfl, hinBand, hnext⟩ := Operation.passes_ask_bind hpasses
  obtain rfl : p' = p := hinBand.leaves
  obtain rfl : reply = p' := hinBand.truthful
  cases reply with
  -- an exception is left: it is taken, told and thrown, and nothing else happens
  | true =>
    rw [hraised] at hnext
    obtain ⟨m₁, m₂, r, fault, rfl, hfault, hthrow⟩ := Operation.passes_lift_bind hnext
    obtain ⟨rfl, rfl, rfl⟩ := Passes.of_pure hthrow
    obtain ⟨reading, m₁, _, _, rfl, htake, hrest⟩ := hfault.of_bind
    obtain ⟨m₁, m₂, _, _, rfl, htell, hreturn⟩ := hrest.of_bind
    obtain ⟨rfl, rfl⟩ := htell.of_tell
    obtain ⟨rfl, rfl, rfl⟩ := hreturn.of_pure
    refine ⟨fault, rfl, ?_⟩
    have htranslated := Translated.intro hlive (List.forall_mem_nil Moment.GivesBack) htake
      (List.forall_mem_nil Moment.GivesBack)
    simpa using htranslated
  | false => exact (hclear false rest q outcome hnext).cons Moment.calm_of_clear

/-- What follows the operation runs only if nothing was left, since otherwise that ended in the error.
-/
theorem Copes.bind {op : Operation α} {f : α → Operation β} (h : Copes current error p op)
    (hf : ∀ value, Judges current (f value)) : Copes current error p (op >>= f) := by
  intro moments q outcome hpasses
  rcases Operation.passes_bind hpasses with ⟨e, rfl, hfirst⟩ | ⟨m₁, m₂, r, value, rfl, hfirst, hnext⟩
  · have hcopes := h moments q _ hfirst
    cases p with
    | true =>
      obtain ⟨fault, he, htranslated⟩ := hcopes
      obtain rfl := Except.error.inj he
      exact ⟨fault, rfl, htranslated⟩
    | false => exact Verdict.failed hcopes
  · have hcopes := h m₁ r _ hfirst
    cases p with
    | true =>
      obtain ⟨fault, he, _⟩ := hcopes
      exact absurd he nofun
    | false => exact (hf value r m₂ q outcome hnext).after (Verdict.calm_of_ok hcopes)

/-- A reference is given back before an error goes on. -/
theorem Judges.orGiveBack {op : Operation α} (h : Judges current op) (r : Ref) :
    Judges current (tryCatch op fun e => do
      Script.ask (.deleteLocalRef r)
      throw e) := by
  intro p moments q outcome hpasses
  rcases Operation.passes_tryCatch hpasses with
    ⟨value, rfl, hop⟩ | ⟨m₁, m₂, r', e, rfl, hop, hhandle⟩
  · exact h p moments q _ hop
  · obtain ⟨_, p', rest, rfl, _, hthrow⟩ := Operation.passes_ask_bind hhandle
    obtain ⟨rfl, rfl, rfl⟩ := Passes.of_pure hthrow
    exact (h p m₁ r' _ hop).failed.givingBack ⟨r, rfl⟩

/-! ## The operations -/

section Operations

/-- To be refused a thread is an error without a fault. -/
theorem judges_attach : Judges current Context.attach := by
  refine judges_ask rfl fun outcome => ?_
  cases outcome with
  | ok _ => exact judges_pure ()
  | error code => exact judges_throw nofun

variable {ctx : Context} (hlive : current = some ctx)
include hlive

/-- Between a call on a handle and its outcome stands one check. -/
theorem copes_checkFault : Copes current .managedFault p ctx.checkFault :=
  copes_check hlive rfl (judges_pure ())

/-- A string is a step. If it came, nothing was raised, and if it did not, the check decides. -/
theorem judges_newString (text : String) : Judges current (ctx.newString text) := by
  unfold Context.newString
  split
  · exact judges_throw nofun
  · refine judges_step rfl fun p str p' hinBand => ?_
    cases hnull : str.isNull with
    | false =>
      -- a string came, so nothing was raised
      obtain rfl : p' = false := clear_of_object (fun hraised => hinBand.noLocal hraised nofun) hnull
      exact (judges_pure str).copes
    | true =>
      -- none came: what was raised is told, and if nothing was, the error has no class
      refine copes_check hlive rfl (judges_throw ?_)
      rintro _ ⟨⟩
      rfl

/-- A name that is not given is the null reference, and makes no call. -/
theorem judges_nameString (name : Option String) : Judges current (ctx.nameString name) := by
  cases name with
  | none => exact judges_pure Ref.null
  | some name => exact judges_newString hlive name

/-- Making a reference durable is a step, with a local reference given back before the check. -/
theorem judges_promote (found : Ref) (cls : TargetClass) :
    Judges current (Handle.promote ctx found cls) := by
  unfold Handle.promote
  split
  · exact judges_throw nofun
  · refine judges_step rfl fun p target p' hinBand => copes_deleteLocalRef ?_
    cases hnull : target.isNull with
    | false =>
      -- a reference came, so nothing was raised
      obtain rfl : p' = false := clear_of_object hinBand.noGlobal hnull
      exact (judges_pure _).copes
    | true =>
      refine copes_check hlive rfl (judges_throw ?_)
      rintro _ ⟨⟩
      rfl

/-- A start that left an exception fails with it, and one that left none and gave nothing fails plainly.
-/
theorem copes_requireStarted (found : Ref) :
    Copes current .startup p (Instance.requireStarted ctx found) := by
  refine copes_check hlive rfl ?_
  cases found.isNull with
  | false => exact judges_pure ()
  | true =>
    refine judges_throw ?_
    rintro _ ⟨⟩
    rfl

/-- To enter an instance is one step, its check, and the promotion of what came. -/
theorem judges_enter (found : Ref) (name : String) :
    Judges current (Instance.enter ctx found name) := by
  refine judges_step rfl fun p processor p' _ => copes_deleteLocalRef ?_
  refine (copes_requireStarted hlive processor).bind fun _ => ?_
  exact (judges_promote hlive processor .processor).bind fun _ => judges_pure _

/-- A start has four steps: two strings, the start itself, and the entry of what it gave. -/
theorem judges_start (configPath name : String) :
    Judges current (Instance.start ctx configPath name) := by
  refine judges_attach.bind fun _ => (judges_newString hlive configPath).bind fun config => ?_
  refine ((judges_nameString hlive _).orGiveBack config).bind fun nameRef => ?_
  refine judges_step rfl fun p found p' _ => copes_deleteLocalRef (copes_deleteLocalRef ?_)
  exact (copes_requireStarted hlive found).bind fun _ => judges_enter hlive found name

/-- A look-up has three steps: the name, the look-up, and the entry of what it gave. -/
theorem judges_find (name : String) : Judges current (Instance.find ctx name) := by
  refine judges_attach.bind fun _ => (judges_nameString hlive _).bind fun nameRef => ?_
  refine judges_step rfl fun p found p' _ => copes_deleteLocalRef ?_
  exact (copes_requireStarted hlive found).bind fun _ => judges_enter hlive found name

end Operations

/-- A cache has three steps: its name, its opening, and the promotion of what came. -/
theorem judges_cache (i : Instance) (name : Option String) :
    Judges current (i.cache current name) := by
  cases current with
  | none => exact judges_throw nofun
  | some ctx =>
    simp only [Instance.cache, Handle.requireContext, pure_bind]
    refine judges_attach.bind fun _ => (judges_nameString rfl name).bind fun nameRef => ?_
    refine judges_step rfl fun p found p' _ => copes_deleteLocalRef ?_
    refine (copes_checkFault rfl).bind fun _ => ?_
    cases found.isNull with
    | true => exact judges_throw nofun
    | false => exact (judges_promote rfl found .cache).bind fun _ => judges_pure _

section Calls

variable {h : Handle} {op : Opcode} {input : Codec.Writer}

/-- A call that its handle may not make is refused without a fault. -/
theorem plain_of_check {target : TargetClass} {shape : Shape} {e : BridgeError}
    (hrefused : op.check target shape = .error e) : Plain e := by
  unfold Opcode.check at hrefused
  split at hrefused
  · obtain rfl := Except.error.inj hrefused
    exact nofun
  · split at hrefused
    · exact absurd hrefused nofun
    · obtain rfl := Except.error.inj hrefused
      exact nofun

/-- A call whose bytes are too many is refused without a fault. -/
theorem plain_of_wireArgs {e : BridgeError} (hrefused : Handle.wireArgs op input = .error e) :
    Plain e := by
  unfold Handle.wireArgs at hrefused
  split at hrefused
  · exact absurd hrefused nofun
  · obtain rfl := Except.error.inj hrefused
    exact nofun

/-- A call that fails its checks is refused without a fault, and one that passes them is made with the
context as it is. -/
theorem judges_prepared {shape : Shape} {f : Context × List Arg → Operation α}
    (hnext : ∀ ctx args, current = some ctx → Judges current (f (ctx, args))) :
    Judges current (h.prepare current op shape input >>= f) := by
  have hregrouped : h.prepare current op shape input >>= f = (do
      liftExcept (op.check h.cls shape)
      let ctx ← Handle.requireContext current
      Context.attach
      let args ← liftExcept (Handle.wireArgs op input)
      f (ctx, args)) := by
    simp [Handle.prepare]
  -- each part is judged by itself: the checks make no call, and attaching makes one
  rw [hregrouped]
  refine (judges_liftExcept fun _ => plain_of_check).bind fun _ => ?_
  cases current with
  | none => exact judges_throw nofun
  | some ctx =>
    simp only [Handle.requireContext, pure_bind]
    refine judges_attach.bind fun _ => (judges_liftExcept fun _ => plain_of_wireArgs).bind
      fun args => ?_
    exact hnext ctx args rfl

/-- A call that answers with 32 bits is one step and its check. -/
theorem judges_inOp : Judges current (h.inOp current op input) :=
  judges_prepared fun _ _ hlive => judges_step rfl fun _ reply _ _ =>
    (copes_checkFault hlive).bind fun _ => judges_pure reply

/-- A call that answers with 64 bits is one step and its check. -/
theorem judges_inOutOp : Judges current (h.inOutOp current op input) :=
  judges_prepared fun _ _ hlive => judges_step rfl fun _ reply _ _ =>
    (copes_checkFault hlive).bind fun _ => judges_pure reply.toUInt64

/-- A call that is completed later is one step and its check: of its completion nothing is said here. -/
theorem judges_inOutOpAsync {callback : Callback} {data : UInt64} :
    Judges current (h.inOutOpAsync current op input callback data) :=
  judges_prepared fun _ _ hlive => judges_step rfl fun _ _ _ _ => copes_checkFault hlive

end Calls

/-! ## The result -/

namespace Exchange

variable {x : Exchange}

/-- Every operation is judged by what its steps left pending. -/
theorem judges_perform (x : Exchange) : Judges x.context? x.perform := by
  cases x with
  | start ctx configPath name => exact (judges_start rfl configPath name).bind fun _ => judges_pure _
  | find ctx name => exact (judges_find rfl name).bind fun _ => judges_pure _
  | cache current i name => exact (judges_cache i name).bind fun _ => judges_pure _
  | inOp current h op input => exact judges_inOp.bind fun _ => judges_pure _
  | inOutOp current h op input => exact judges_inOutOp.bind fun _ => judges_pure _
  | inOutOpAsync current h op input callback data =>
    exact judges_inOutOpAsync.bind fun _ => judges_pure _

/-- Reading an exception tells nothing. -/
theorem told_of_reading {d : Descriptors} {describe : Bool} {p q : Bool} {moments : List Moment}
    {fault : ManagedFault} (hreads : (takeFault d describe).Passes p moments q fault) :
    told moments = [] := by
  refine List.filterMap_eq_nil_iff.mpr fun m hm => ?_
  have hkind := (reads_of_looking (looking_takeFault d describe)).events hreads.follows m.event
    (List.mem_map.mpr ⟨m, hm, rfl⟩)
  obtain ⟨event, pending⟩ := m
  cases event with
  | called request reply => rfl
  | reported fault => exact absurd hkind id

/-- After a step that raised one fault is told, which is the one that was read. -/
theorem told_of_translated {current : Option Context} {fault : ManagedFault} {moments : List Moment}
    (h : Translated current fault moments) : told moments = [fault] := by
  cases h with
  | intro hlive hgives hreads hgivesBack =>
    rw [told_append, told_of_calm fun m hm => Moment.calm_of_givesBack (hgives m hm), told_cons,
      told_append, told_of_reading hreads, told_cons,
      told_of_calm fun m hm => Moment.calm_of_givesBack (hgivesBack m hm)]
    rfl

/-- **What is pending decides how an operation ends.** Whatever a runtime answers within the failure
contract, take the first step of an operation that left an exception pending, if there is one.

* If there is one, it ended the operation: whatever it answered, the exception was taken off the thread
  and read, with nothing but references given back before and after (`Translated`), and the operation
  ended in the error that belongs to the step, which carries what was read. The error callback was told
  of exactly that fault, once.
* If there is none, the error callback was told nothing, and no error carries a fault with a class. -/
theorem verdict {p q : Bool} {moments : List Moment}
    {outcome : Except BridgeError (Option Handle)}
    (hpasses : x.perform.run.Passes p moments q outcome) :
    match moments.findSome? (·.raised?) with
    | some error => ∃ front m rest fault, moments = front ++ m :: rest ∧
        (∀ m' ∈ front, m'.raised? = none) ∧ m.raised? = some error ∧
        Translated x.context? fault rest ∧ outcome = .error (error fault) ∧
        (error fault).fault? = some fault ∧ told moments = [fault]
    | none => told moments = [] ∧
        ∀ e fault, outcome = .error e → e.fault? = some fault → fault.className = none := by
  cases x.judges_perform p moments q outcome hpasses with
  -- no step raised: every moment is calm
  | calm hcalm hplain =>
    rw [List.findSome?_eq_none_iff.mpr fun m hm => (hcalm m hm).raised]
    exact ⟨told_of_calm hcalm, fun e fault he => hplain e he fault⟩
  -- the first step that raised is the one that the verdict names
  | @raised front rest m error fault hcalm hstep htranslated =>
    have hfirst : (front ++ m :: rest).findSome? (·.raised?) = some error := by
      rw [List.findSome?_append,
        List.findSome?_eq_none_iff.mpr fun m' hm => (hcalm m' hm).raised, List.findSome?_cons, hstep]
      rfl
    rw [hfirst]
    refine ⟨front, m, rest, fault, rfl, fun m' hm => (hcalm m' hm).raised, hstep, htranslated, rfl,
      ?_, ?_⟩
    · exact Moment.fault?_of_raised hstep fault
    · rw [told_append, told_of_calm hcalm, told_cons, told_of_translated htranslated,
        Moment.told_of_raised hstep]
      rfl

/-- A put on a context as a fresh runtime numbers it. -/
def putOne : Exchange :=
  .inOp (some { descriptors := numbered }) { target := ⟨17⟩, cls := .cache } .put
    (Cache.putRequest 1 2)

/-- What the exception of the put says. -/
def closed : ManagedFault :=
  { message := "closed", className := some "java.lang.IllegalStateException" }

/-- The put answers that it was stored, and raises. -/
def putRaised : List Moment := [
  ⟨.called .attach (.ok ()), false⟩,
  ⟨.called (.callInt ⟨17⟩ ⟨16⟩ ⟨9⟩ [.int Opcode.put.code,
    .long (.buffer (Cache.putRequest 1 2).bytes),
    .int (Int32.ofNat (Cache.putRequest 1 2).position)]) 1, true⟩,
  ⟨.called .exceptionCheck true, true⟩,
  ⟨.called .exceptionCheck true, true⟩,
  ⟨.called .exceptionOccurred ⟨18⟩, true⟩,
  ⟨.called .exceptionClear (), false⟩,
  ⟨.called (.getObjectClass ⟨18⟩) ⟨19⟩, false⟩,
  ⟨.called (.callObject ⟨19⟩ ⟨3⟩ []) ⟨20⟩, false⟩,
  ⟨.called (.deleteLocalRef ⟨19⟩) (), false⟩,
  ⟨.called .exceptionCheck false, false⟩,
  ⟨.called (.getString ⟨20⟩) (some "java.lang.IllegalStateException"), false⟩,
  ⟨.called (.deleteLocalRef ⟨20⟩) (), false⟩,
  ⟨.called (.callObject ⟨18⟩ ⟨2⟩ []) ⟨21⟩, false⟩,
  ⟨.called (.deleteLocalRef ⟨18⟩) (), false⟩,
  ⟨.called .exceptionCheck false, false⟩,
  ⟨.called (.getString ⟨21⟩) (some "closed"), false⟩,
  ⟨.called (.deleteLocalRef ⟨21⟩) (), false⟩,
  ⟨.reported closed, false⟩]

/-- A runtime may answer the put like this: every moment of it is within the contract. -/
theorem putOne_passes :
    putOne.perform.run.Passes false putRaised false (.error (.managedFault closed)) := by
  have hquiet : ∀ {p : Bool} {request : Call} {reply : request.Reply},
      request.leaves p false → request.truthful reply p → InBand p request reply false :=
    fun hleaves htruthful => ⟨hleaves, htruthful, nofun, nofun⟩
  have hstill : ∀ {p : Bool} {request : Call} {reply : request.Reply}, request.leaves p true →
      request.truthful reply p → (request ≠ .exceptionOccurred → request.newLocal reply = .null) →
      request.newGlobal reply = .null → InBand p request reply true :=
    fun hleaves htruthful hnoLocal hnoGlobal => ⟨hleaves, htruthful, fun _ => hnoLocal,
      fun _ => hnoGlobal⟩
  exact .call _ (hquiet id trivial) <|
    -- a number comes with the exception
    .call _ (hstill trivial trivial (fun _ => rfl) rfl) <|
    .call _ (hstill rfl rfl (fun _ => rfl) rfl) <| .call _ (hstill rfl rfl (fun _ => rfl) rfl) <|
    .call _ (hstill rfl trivial (absurd rfl) rfl) <| .call _ (hquiet rfl trivial) <|
    .call _ (hquiet trivial trivial) <| .call _ (hquiet trivial trivial) <|
    .call _ (hquiet rfl trivial) <| .call _ (hquiet rfl rfl) <| .call _ (hquiet trivial trivial) <|
    .call _ (hquiet rfl trivial) <| .call _ (hquiet trivial trivial) <| .call _ (hquiet rfl trivial) <|
    .call _ (hquiet rfl rfl) <| .call _ (hquiet trivial trivial) <| .call _ (hquiet rfl trivial) <|
    .report <| .done _ _

theorem putOne_told_once :
    putOne.perform.run.Passes false putRaised false (.error (.managedFault closed)) ∧
      putRaised.findSome? (·.raised?) = some .managedFault ∧ told putRaised = [closed] := by
  obtain ⟨_, _, _, fault, _, _, _, _, hended, _, htold⟩ := verdict putOne_passes
  obtain rfl : closed = fault := BridgeError.managedFault.inj (Except.error.inj hended)
  exact ⟨putOne_passes, rfl, htold⟩

end Exchange

end GridBridge.Bridge
