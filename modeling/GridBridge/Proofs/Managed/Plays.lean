import GridBridge.Proofs.Managed.Frame

/-!
# Scripts played on the loopback runtime

**`Plays`** says that the runtime answers a script on a thread, call by call, and through which events it
comes to which value and which state. It is closed under the ways scripts are put together, and each
call that is made with no exception pending has its answer here as an equation.
-/

namespace GridBridge.Managed

open Protocol Seam Seam.Script

/-- A script played on a thread of the runtime: how it ends, and the runtime then. -/
def Runtime.play {α : Type} (rt : Runtime) (thread : ThreadId) (script : Script α) :
    Except Fatal α × Runtime :=
  (script.run (answer thread) fun _ => pure ()).run.run rt

/-- The runtime answers the script on the thread: it goes through these events, comes to this value and
leaves that runtime. No answer hands a completion out. -/
inductive Plays (thread : ThreadId) {α : Type} :
    Runtime → Script α → List Event → α → Runtime → Prop where
  | done (rt : Runtime) (value : α) : Plays thread rt (.done value) [] value rt
  | call {request : Call} {next : request.Reply → Script α} {rt rt₁ rt' : Runtime}
      {reply : request.Reply} {events : List Event} {value : α}
      (hanswered : (answer thread request).run.run rt = (.ok reply, rt₁))
      (hquiet : rt₁.outbox = rt.outbox) (hrest : Plays thread rt₁ (next reply) events value rt') :
      Plays thread rt (.call request next) (.called request reply :: events) value rt'
  | report {fault : ManagedFault} {next : Script α} {rt rt' : Runtime} {events : List Event} {value : α}
      (hrest : Plays thread rt next events value rt') :
      Plays thread rt (.report fault next) (.reported fault :: events) value rt'

variable {thread : ThreadId} {α β : Type} {rt rt₁ rt' : Runtime} {events events' : List Event}

namespace Plays

/-- The events are ones that the script can go through. -/
theorem follows {script : Script α} {value : α} (h : Plays thread rt script events value rt') :
    script.Follows events value := by
  induction h with
  | done rt value => exact .done value
  | call _ _ _ ih => exact .call _ ih
  | report _ ih => exact .report ih

/-- The runtime that plays the script comes to this value, and to no other. -/
theorem played {script : Script α} {value : α} (h : Plays thread rt script events value rt') :
    rt.play thread script = (.ok value, rt') := by
  induction h with
  | done rt value => rfl
  | call hanswered _ _ ih =>
    unfold Runtime.play Script.run
    rw [run_bind_of_ok hanswered]
    exact ih
  | report _ ih => exact ih

/-- One call. -/
theorem ask {request : Call} {reply : request.Reply}
    (hanswered : (answer thread request).run.run rt = (.ok reply, rt₁))
    (hquiet : rt₁.outbox = rt.outbox) :
    Plays thread rt (Script.ask request) [.called request reply] reply rt₁ :=
  .call hanswered hquiet (.done rt₁ reply)

/-- Scripts in a row are played in a row. -/
theorem bind {x : Script α} {f : α → Script β} {value : α} {value' : β}
    (hfirst : Plays thread rt x events value rt₁)
    (hrest : Plays thread rt₁ (f value) events' value' rt') :
    Plays thread rt (x >>= f) (events ++ events') value' rt' := by
  induction hfirst with
  | done _ _ => exact hrest
  | call hanswered hquiet _ ih => exact .call hanswered hquiet (ih hrest)
  | report _ ih => exact .report (ih hrest)

/-! ## Operations -/

/-- An operation goes on from the value of its first part. -/
theorem ok_bind {x : Operation α} {f : α → Operation β} {value : α} {outcome : Except BridgeError β}
    (hfirst : Plays thread rt x.run events (.ok value) rt₁)
    (hrest : Plays thread rt₁ (f value).run events' outcome rt') :
    Plays thread rt (x >>= f).run (events ++ events') outcome rt' := by
  rw [ExceptT.run_bind]
  exact hfirst.bind hrest

/-- An operation ends where its first part ends in an error. -/
theorem error_bind {x : Operation α} {f : α → Operation β} {e : BridgeError}
    (hfirst : Plays thread rt x.run events (.error e) rt') :
    Plays thread rt (x >>= f).run events (.error e) rt' := by
  rw [ExceptT.run_bind, ← List.append_nil events]
  exact hfirst.bind (.done rt' _)

/-- A script, and the operation that comes after it. -/
theorem lift_bind {x : Script α} {f : α → Operation β} {value : α} {outcome : Except BridgeError β}
    (hfirst : Plays thread rt x events value rt₁)
    (hrest : Plays thread rt₁ (f value).run events' outcome rt') :
    Plays thread rt ((liftM x : Operation α) >>= f).run (events ++ events') outcome rt' := by
  have hlifted : Plays thread rt (Except.ok <$> x : Script (Except BridgeError α)) (events ++ [])
      (.ok value) rt₁ := by
    rw [map_eq_pure_bind]
    exact hfirst.bind (.done rt₁ _)
  rw [List.append_nil] at hlifted
  exact ok_bind hlifted hrest

end Plays

/-! ## Through whatever events -/

/-- The runtime answers the script on the thread, and it comes to this value and leaves that runtime. -/
def Gives (thread : ThreadId) (rt : Runtime) (script : Script α) (value : α) (rt' : Runtime) : Prop :=
  ∃ events, Plays thread rt script events value rt'

/-- The runtime that plays the script comes to the value. -/
theorem Gives.played {script : Script α} {value : α} (h : Gives thread rt script value rt') :
    rt.play thread script = (.ok value, rt') := by
  obtain ⟨events, hplays⟩ := h
  exact hplays.played

/-- A script that asks nothing. -/
theorem gives_done (value : α) : Gives thread rt (.done value) value rt := ⟨[], .done rt value⟩

/-- Scripts in a row. -/
theorem Gives.bind {x : Script α} {f : α → Script β} {value : α} {value' : β}
    (hfirst : Gives thread rt x value rt₁) (hrest : Gives thread rt₁ (f value) value' rt') :
    Gives thread rt (x >>= f) value' rt' := by
  obtain ⟨events, hfirst⟩ := hfirst
  obtain ⟨events', hrest⟩ := hrest
  exact ⟨_, hfirst.bind hrest⟩

/-- One call, and what comes after it. -/
theorem gives_ask_bind {request : Call} {reply : request.Reply} {f : request.Reply → Script β}
    {value : β} (hanswered : (answer thread request).run.run rt = (.ok reply, rt₁))
    (hquiet : rt₁.outbox = rt.outbox) (hrest : Gives thread rt₁ (f reply) value rt') :
    Gives thread rt (Script.ask request >>= f) value rt' :=
  .bind ⟨_, .ask hanswered hquiet⟩ hrest

/-! ## References -/

/-- A live reference refers to its object. -/
theorem RefTable.Sound.refers (hsound : rt.refs.Sound) {e : LiveRef} (hlive : e ∈ rt.refs.live) :
    Refers rt e.token (some e.object) :=
  .inr ⟨hsound.not_null (RefTable.mem_tokens.mpr ⟨e, hlive, rfl, rfl⟩), rfl, hsound.get?_eq hlive⟩

/-! ## Parts of an answer -/

namespace Answering

/-- With nothing pending a call goes on. -/
theorem run_requireClear (hclear : rt.pending? thread = none) (activity : String) :
    (requireClear thread activity).run.run rt = (.ok (), rt) := by
  unfold requireClear
  rw [run_get_bind, hclear]
  rfl

/-- A reference is resolved to what it refers to. -/
theorem run_resolve {r : Ref} {found : Option Object} (hrefers : Refers rt r found) :
    (resolve r).run.run rt = (.ok found, rt) := by
  unfold resolve
  obtain ⟨hnull, rfl⟩ | ⟨hnonnull, hsome, hget⟩ := hrefers
  -- the null reference is not looked up
  · rw [hnull]
    rfl
  · obtain ⟨object, rfl⟩ := Option.isSome_iff_exists.mp hsome
    rw [hnonnull]
    simp only [Bool.false_eq_true, if_false, run_get_bind, hget]
    rfl

/-- A reference that leads nowhere ends the call it is used in. -/
theorem run_resolve_stale {r : Ref} (hnonnull : r.isNull = false) (hlost : rt.refs.get? r = none) :
    (resolve r).run.run rt = (.error (.staleUse r), rt) := by
  unfold resolve
  rw [hnonnull]
  simp only [Bool.false_eq_true, if_false, run_get_bind, hlost]
  rfl

/-- What giving a reference back comes to. Where it fails, nothing is changed by it. -/
theorem run_deleteRef (rt : Runtime) (r : Ref) (kind : RefKind) :
    (deleteRef r kind).run.run rt =
      match rt.refs.remove r kind with
      | .ok refs => (.ok (), { rt with refs })
      | .error .stale => (.error (.staleDelete kind r), rt)
      | .error (.wrongKind actual) => (.error (.wrongKind r kind actual), rt) := by
  unfold deleteRef
  rw [run_get_bind]
  cases rt.refs.remove r kind with
  | ok refs => rfl
  | error cause => cases cause <;> rfl

/-- Arguments are resolved to what they refer to, without a change. -/
theorem run_resolveArgs {args : List Arg} {values : List ArgValue}
    (hresolved : List.Forall₂ (Resolved rt) args values) :
    (args.mapM resolveArg).run.run rt = (.ok values, rt) := by
  induction hresolved with
  | nil => rfl
  | @cons arg value rest values hfirst _ ih =>
    have hhead : (resolveArg arg).run.run rt = (.ok value, rt) := by
      cases arg with
      | int _ => exact congrArg (fun v => (Except.ok v, rt)) hfirst.symm
      | long _ => exact congrArg (fun v => (Except.ok v, rt)) hfirst.symm
      | object r =>
        obtain ⟨found, rfl, hrefers⟩ := hfirst
        unfold resolveArg
        rw [run_bind_of_ok (run_resolve hrefers)]
        rfl
    rw [List.mapM_cons, run_bind_of_ok hhead, run_bind_of_ok ih]
    rfl

/-- A class that inherits the method passes. -/
theorem run_checkClass {entry : MethodEntry} {cls : Ref} {name : String}
    (hrefers : Refers rt cls (some (.cls name))) (hinherits : isSubclass name entry.cls = true) :
    (checkClass entry (some cls)).run.run rt = (.ok (), rt) := by
  have hfound : (classNameAt cls).run.run rt = (.ok name, rt) := by
    unfold classNameAt
    rw [run_bind_of_ok (run_resolve hrefers)]
    rfl
  unfold checkClass
  rw [run_bind_of_ok hfound, hinherits]
  rfl

/-- A call on an object comes down to running the method, if nothing is pending. -/
theorem run_invoke {r : Ref} {cls : Option Ref} {method : MethodId} {entry : MethodEntry}
    {object : Object} {args : List Arg} {values : List ArgValue} (hclear : rt.pending? thread = none)
    (hfound : methodEntry? method = some entry) (hisInstance : entry.spec.isStatic = false)
    (hchecked : (checkClass entry cls).run.run rt = (.ok (), rt)) (hself : Refers rt r (some object))
    (hresolved : List.Forall₂ (Resolved rt) args values) :
    (invoke thread (some r) cls method args).run.run rt =
      (runMethod thread entry.behaviour (some object) values).run.run rt := by
  unfold invoke
  rw [run_bind_of_ok (run_requireClear hclear _), hfound]
  simp only [hisInstance, Option.isNone_some, ne_eq, not_true_eq_false, if_false]
  rw [run_bind_of_ok hchecked, run_bind_of_ok (run_resolve hself), run_bind_of_ok
    (run_resolveArgs hresolved)]

/-- A method that gives a value gives it to its caller. -/
theorem run_runMethod {behaviour : Behaviour} {self : Option Object} {values : List ArgValue}
    {value : CallValue} (hran : (Code.dispatch behaviour self values).run.run rt = (.ok value, rt')) :
    (runMethod thread behaviour self values).run.run rt = (.ok value, rt') := by
  unfold runMethod
  rw [run_get_bind, hran]
  rfl

/-- What a method throws becomes pending on the thread that called it. -/
theorem run_runMethod_thrown {behaviour : Behaviour} {self : Option Object} {values : List ArgValue}
    {thrown : Thrown}
    (hran : (Code.dispatch behaviour self values).run.run rt = (.error (.thrown thrown), rt')) :
    (runMethod thread behaviour self values).run.run rt = (.ok .void, rt'.raise thread thrown) := by
  unfold runMethod
  rw [run_get_bind, hran]
  rfl

end Answering

/-! ## Answers -/

/-- The runtime with a local reference more. -/
def Runtime.withLocal (rt : Runtime) (object : Object) : Runtime :=
  { rt with refs := (rt.refs.insert object .localRef).2 }

open Answering

/-- Attaching answers what the runtime says to it. -/
theorem run_attach : (answer thread .attach).run.run rt =
    (.ok (rt.attach thread).1, (rt.attach thread).2) := rfl

/-- A check answers whether something is pending. -/
theorem run_exceptionCheck {pending : Bool} (hsame : (rt.pending? thread).isSome = pending) :
    (answer thread .exceptionCheck).run.run rt = (.ok pending, rt) := by
  rw [← hsame]
  rfl

/-- What is pending is handed out as a local reference, and stays pending. -/
theorem run_exceptionOccurred {thrown : Thrown} (hpending : rt.pending? thread = some thrown) :
    (answer thread .exceptionOccurred).run.run rt =
      (.ok rt.refs.token, rt.withLocal (.throwable thrown)) := by
  unfold answer
  rw [run_get_bind, hpending]
  rfl

/-- An exception that is described is counted. -/
theorem run_exceptionDescribe (hpending : (rt.pending? thread).isSome = true) :
    (answer thread .exceptionDescribe).run.run rt =
      (.ok (), { rt with described := rt.described + 1 }) := by
  unfold answer
  rw [run_get_bind, if_pos hpending]
  rfl

/-- The class of an object is handed out as a local reference. -/
theorem run_getObjectClass {r : Ref} {object : Object} (hrefers : Refers rt r (some object)) :
    (answer thread (.getObjectClass r)).run.run rt =
      (.ok rt.refs.token, rt.withLocal (.cls object.className)) := by
  unfold answer
  rw [run_bind_of_ok (run_resolve hrefers)]
  rfl

/-- A string is read. -/
theorem run_getString {r : Ref} {text : String} (hrefers : Refers rt r (some (.str text))) :
    (answer thread (.getString r)).run.run rt = (.ok (some text), rt) := by
  unfold answer
  rw [run_bind_of_ok (run_resolve hrefers)]
  rfl

/-- A local reference is given back, wherever it stands among the live ones. -/
theorem run_deleteLocalRef (front : List LiveRef) {back : List LiveRef} {r : Ref} {object : Object}
    (hsound : rt.refs.Sound) (hlive : rt.refs.live = front ++ ⟨r, .localRef, object⟩ :: back) :
    (answer thread (.deleteLocalRef r)).run.run rt =
      (.ok (), { rt with refs := { rt.refs with live := front ++ back } }) := by
  have hremoved : rt.refs.remove r .localRef = .ok { rt.refs with live := front ++ back } :=
    hsound.remove_between hlive
  unfold answer
  rw [run_deleteRef, hremoved]

section Calls

variable {r cls : Ref} {name : String} {method : MethodId} {entry : MethodEntry} {object : Object}
  {args : List Arg} {values : List ArgValue} (hclear : rt.pending? thread = none)
  (hfound : methodEntry? method = some entry) (hisInstance : entry.spec.isStatic = false)
  (hself : Refers rt r (some object)) (hresolved : List.Forall₂ (Resolved rt) args values)
include hclear hfound hisInstance hself hresolved

/-- The object that a method gives is handed out as a local reference. -/
theorem run_callObject {given : Object}
    (hran : (Code.dispatch entry.behaviour (some object) values).run.run rt =
      (.ok (.object (some given)), rt')) :
    (answer thread (.callObject r method args)).run.run rt =
      (.ok rt'.refs.token, rt'.withLocal given) := by
  -- a call on an object names no class that would have to be checked
  have hunchecked : (checkClass entry none).run.run rt = (.ok (), rt) := rfl
  have hcalled := (run_invoke hclear hfound hisInstance hunchecked hself hresolved).trans
    (run_runMethod hran)
  unfold answer
  rw [run_bind_of_ok hcalled]
  rfl

/-- What it throws becomes pending, and no object is handed out. -/
theorem run_callObject_thrown {thrown : Thrown}
    (hran : (Code.dispatch entry.behaviour (some object) values).run.run rt =
      (.error (.thrown thrown), rt')) :
    (answer thread (.callObject r method args)).run.run rt =
      (.ok .null, rt'.raise thread thrown) := by
  have hunchecked : (checkClass entry none).run.run rt = (.ok (), rt) := rfl
  have hcalled := (run_invoke hclear hfound hisInstance hunchecked hself hresolved).trans
    (run_runMethod_thrown hran)
  unfold answer
  rw [run_bind_of_ok hcalled]
  rfl

/-! A method that is called through a class which inherits it. -/

section Inherited

variable (hchecked : (checkClass entry (some cls)).run.run rt = (.ok (), rt))
include hchecked

/-- A method that gives 32 bits. -/
theorem run_callInt {value : Int32}
    (hran : (Code.dispatch entry.behaviour (some object) values).run.run rt = (.ok (.int value), rt')) :
    (answer thread (.callInt r cls method args)).run.run rt = (.ok value, rt') := by
  have hcalled := (run_invoke hclear hfound hisInstance hchecked hself hresolved).trans
    (run_runMethod hran)
  unfold answer
  rw [run_bind_of_ok hcalled]
  rfl

/-- A method that gives 64 bits. -/
theorem run_callLong {value : Int64}
    (hran : (Code.dispatch entry.behaviour (some object) values).run.run rt = (.ok (.long value),
      rt')) :
    (answer thread (.callLong r cls method args)).run.run rt = (.ok value, rt') := by
  have hcalled := (run_invoke hclear hfound hisInstance hchecked hself hresolved).trans
    (run_runMethod hran)
  unfold answer
  rw [run_bind_of_ok hcalled]
  rfl

/-- A method whose value is not asked for. -/
theorem run_callVoid {value : CallValue}
    (hran : (Code.dispatch entry.behaviour (some object) values).run.run rt = (.ok value, rt')) :
    (answer thread (.callVoid r cls method args)).run.run rt = (.ok (), rt') := by
  have hcalled := (run_invoke hclear hfound hisInstance hchecked hself hresolved).trans
    (run_runMethod hran)
  unfold answer
  rw [run_bind_of_ok hcalled]
  rfl

variable {thrown : Thrown}
  (hran : (Code.dispatch entry.behaviour (some object) values).run.run rt =
    (.error (.thrown thrown), rt'))
include hran

/-- A method that throws gives zero to a caller that waits for 32 bits. -/
theorem run_callInt_thrown :
    (answer thread (.callInt r cls method args)).run.run rt = (.ok 0, rt'.raise thread thrown) := by
  have hcalled := (run_invoke hclear hfound hisInstance hchecked hself hresolved).trans
    (run_runMethod_thrown hran)
  unfold answer
  rw [run_bind_of_ok hcalled]
  rfl

/-- A method that throws gives zero to a caller that waits for 64 bits. -/
theorem run_callLong_thrown :
    (answer thread (.callLong r cls method args)).run.run rt = (.ok 0, rt'.raise thread thrown) := by
  have hcalled := (run_invoke hclear hfound hisInstance hchecked hself hresolved).trans
    (run_runMethod_thrown hran)
  unfold answer
  rw [run_bind_of_ok hcalled]
  rfl

end Inherited

end Calls

end GridBridge.Managed
