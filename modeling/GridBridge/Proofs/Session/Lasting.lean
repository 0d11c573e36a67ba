import GridBridge.Proofs.Bridge.Upkeep
import GridBridge.Proofs.Session.Play
import GridBridge.Proofs.Session.World

/-!
# What no act breaks

What outlasts every call and does not depend on more than runtime and relay outlasts every act, but that
an act that issues a call registers it first (**`Lasting.leaves_run`**). What is only **`Steadfast`**
outlasts every act but the turn of a worker. So numbers of references only go up (`grows_run`).
-/

namespace GridBridge.Session

open Protocol Seam Bridge Managed Relay

variable {α : Type} {P : Session → Prop} {thread : ThreadId} {s : Session} {act : Act}

/-! ## Operations -/

/-- To open is to play the operation, and perhaps to count a handle more. -/
theorem keeps_openOn_of {operation : Operation α} (hplayed : Keeps P (perform thread operation))
    (hcounts : ∀ f, Keeps P (countHandles f)) : Keeps P (openOn thread operation) := by
  refine keeps_bind hplayed fun outcome => ?_
  cases outcome with
  | ok _ => exact keeps_bind (hcounts _) fun _ => keeps_pure
  | error _ => exact keeps_pure

/-- To release a handle is to play it, and perhaps to count a handle less. -/
theorem keeps_releaseOn_of {handle : Handle}
    (hplayed : ∀ current, Keeps P (play thread (handle.release current)))
    (hcounts : ∀ f, Keeps P (countHandles f)) : Keeps P (releaseOn thread handle) := by
  refine keeps_get fun s => keeps_bind (hplayed _) fun released => ?_
  split
  · exact hcounts _
  · exact keeps_pure

namespace Tolerant

variable {calls : Call → Prop} {told : ManagedFault → Prop} (htolerant : Tolerant calls P)
include htolerant

/-- A change beside runtime and relay. -/
theorem keeps_beside {f : Session → Session} (hruntime : ∀ s, (f s).runtime = s.runtime)
    (hrelay : ∀ s, (f s).relay = s.relay) : Keeps P (modify f) :=
  keeps_modify fun s h => htolerant.beside h (hruntime s) (hrelay s)

/-- An opening keeps what its calls do. -/
theorem keeps_openOn {operation : Operation α} (hmakes : operation.run.Makes calls told) :
    Keeps P (openOn thread operation) :=
  keeps_openOn_of (htolerant.keeps_play hmakes) fun _ => htolerant.keeps_beside (fun _ => rfl)
    fun _ => rfl

/-- So does a release. -/
theorem keeps_releaseOn {handle : Handle}
    (hmakes : ∀ current, (handle.release current).Makes calls told) :
    Keeps P (releaseOn thread handle) :=
  keeps_releaseOn_of (fun _ => htolerant.keeps_play (hmakes _))
    fun _ => htolerant.keeps_beside (fun _ => rfl) fun _ => rfl

/-- So does the end of a context. -/
theorem keeps_dropContextOn (hmakes : ∀ ctx : Context, ctx.tearDown.Makes calls told) :
    Keeps P (dropContextOn thread) := by
  refine keeps_get fun s => ?_
  split
  · exact keeps_pure
  · refine keeps_bind (htolerant.keeps_beside (fun _ => rfl) fun _ => rfl) fun _ => ?_
    exact keeps_bind (htolerant.keeps_play (hmakes _)) fun _ => keeps_pure

/-- So does a start, which may end the context that was there before. -/
theorem keeps_startOn {args : LaunchArgs} {hasErrorCallback : Bool}
    (hmakes : (Context.start args).run.Makes calls told)
    (hends : ∀ ctx : Context, ctx.tearDown.Makes calls told) :
    Keeps P (startOn thread args hasErrorCallback) := by
  refine keeps_bind (htolerant.keeps_play hmakes) fun outcome => ?_
  cases outcome with
  | ok _ =>
    refine keeps_bind (htolerant.keeps_dropContextOn hends) fun _ => ?_
    exact keeps_bind (htolerant.keeps_beside (fun _ => rfl) fun _ => rfl) fun _ => keeps_pure
  | error _ => exact keeps_pure

/-- What an issue leaves once its call is registered. The call is taken back if it failed. -/
theorem ends_issueFrom {handle : Handle} {op : Opcode} {input : Codec.Writer} {l : LoopId}
    {reaction : Reaction}
    (hmakes : ∀ current, (handle.inOutOpAsync current op input .relay s.relay.nextCall).run.Makes
      calls told)
    (h : P { s with relay := (s.relay.begin l reaction).2 }) :
    Ends (issueFrom thread handle op input l reaction) (fun outcome s' => ∃ called, P called ∧
      s' = match outcome with
        | .ok () => called
        | .error _ => { called with relay := called.relay.withdraw l s.relay.nextCall }) s := by
  refine ends_bind fun id begun hran => ?_
  cases hran
  refine ends_bind (ends_get (ends_bind fun outcome called hran => ?_))
  have hleft : P called := (htolerant.keeps_play (hmakes _) _ h).of_run hran
  cases outcome with
  | ok _ => exact ends_pure ⟨called, hleft, rfl⟩
  | error e => exact ends_bind (ends_modify (ends_pure ⟨called, hleft, rfl⟩))

end Tolerant

namespace Sturdy

variable (hsturdy : Sturdy P)
include hsturdy

/-- A change of the relay in which it lets numbers of calls go. -/
theorem keeps_relay {f : Relay Reaction → Relay Reaction} (hf : ∀ r : Relay Reaction, r.Sheds (f r)) :
    Keeps P (modify fun s => { s with relay := f s.relay }) :=
  keeps_modify fun s h => hsturdy.beside h rfl (hf s.relay)

/-- The relay may forget a call that failed. -/
theorem keeps_withdraw {l : LoopId} {id : CallId} (outcome : Except BridgeError Unit) :
    Keeps P (do
      match outcome with
      | .ok () => return .ok ()
      | .error e =>
        modify fun s => { s with relay := s.relay.withdraw l id }
        return .error e : Step (Except BridgeError Unit)) := by
  cases outcome with
  | ok _ => exact keeps_pure
  | error e => exact keeps_bind (hsturdy.keeps_relay (sheds_withdraw · l id)) fun _ => keeps_pure

/-- Issuing a call keeps what registering it does not break. -/
theorem leaves_issueFrom {handle : Handle} {op : Opcode} {input : Codec.Writer} {l : LoopId}
    {reaction : Reaction} (h : P { s with relay := (s.relay.begin l reaction).2 }) :
    Leaves (issueFrom thread handle op input l reaction) P s := by
  -- the call is registered before anything is asked of the runtime
  refine leaves_bind (leaves_modifyGet h) fun id s' h => leaves_get ?_
  exact leaves_bind (hsturdy.keeps_play _ s' h) fun outcome s'' h => hsturdy.keeps_withdraw outcome
    s'' h

end Sturdy

/-! ## Acts -/

/-- A loop takes a number off its queue, if there is one, and nothing else is changed. -/
theorem yields_deliverNext {l : LoopId} :
    Yields (deliverNext relayAccess (fun _ _ => pure ()) l) (fun _ s' => s' = s ∨
      ∃ id claimed after, s.relay.claimNext? l = some (id, claimed, after) ∧
        s' = { s with relay := after }) s := by
  -- nothing is ready, or a number without a callback, or a callback that does nothing here
  refine yields_bind (yields_bind (yields_get (yields_pure ?_)))
  cases hnext : s.relay.claimNext? l with
  | none => exact yields_pure (.inl rfl)
  | some claim =>
    obtain ⟨id, claimed, after⟩ := claim
    refine yields_bind (yields_modify ?_)
    cases claimed with
    | none => exact yields_pure (.inr ⟨id, none, after, rfl, rfl⟩)
    | some claimed =>
      exact yields_bind (yields_pure (yields_pure (.inr ⟨id, some claimed, after, rfl, rfl⟩)))

/-- The outcome is looked at afterwards. -/
theorem keeps_quietly {x : Step (Except BridgeError α)} (hx : Keeps P x) : Keeps P (Act.quietly x) :=
  keeps_bind hx fun _ => keeps_pure

/-- So is the handle. -/
theorem keeps_opening {handle : α → Handle} {x : Step (Except BridgeError α)} (hx : Keeps P x) :
    Keeps P (Act.opening handle x) :=
  keeps_bind hx fun _ => keeps_pure

/-- Without a context nothing is done. -/
theorem keeps_onContext {x : Context → Step Outcome} (hx : ∀ ctx, Keeps P (x ctx)) :
    Keeps P (Act.onContext thread x) := by
  refine keeps_get fun s => ?_
  split
  · exact hx _
  · exact keeps_pure

/-- Whether all that an act does is to play scripts. -/
def Act.plays : Act → Bool
  | .switch _ | .issue .. | .openLoop | .dropLoop _ | .deliver _ | .work => false
  | _ => true

/-- Whether an act begins or ends the life of the runtime. -/
def Act.vital : Act → Bool
  | .start .. | .dropContext _ => true
  | _ => false

/-- What everyday calls do not break, an act that plays scripts keeps, unless it is a vital one. What no
call breaks, that keeps as well. -/
theorem Tolerant.keeps_run {calls : Call → Prop} (htolerant : Tolerant calls P)
    (heveryday : ∀ request : Call, request.everyday = true → calls request) (hplays : act.plays = true)
    (hvital : act.vital = true → ∀ request, calls request) : Keeps P act.run := by
  have hdaily {α : Type} {script : Script α} (hmade : Everyday script) :
      script.Makes calls fun _ => True := hmade.mono_calls heveryday
  have hkeeps {α : Type} {script : Script α} (hmade : Bridge.Keeps script) :
      script.Makes calls fun _ => True := hdaily hmade.everyday
  -- a vital act may make any call
  have hwhole {α : Type} (script : Script α) (h : act.vital = true) :
      script.Makes calls fun _ => True := (Script.Makes.any script).mono_calls fun r _ => hvital h r
  have hcalling {α : Type} (thread : ThreadId) (operation : Option Context → Operation α)
      (hmade : ∀ current, Everyday (operation current).run) : Keeps P (Act.calling thread operation) :=
    keeps_get fun _ => keeps_quietly (htolerant.keeps_play (hdaily (hmade _)))
  cases act with
  | start thread args hasErrorCallback =>
    exact keeps_quietly (htolerant.keeps_startOn (hwhole _ rfl) fun _ => hwhole _ rfl)
  | attach thread =>
    exact keeps_onContext fun _ => keeps_quietly (htolerant.keeps_play (hkeeps keeps_attach))
  | openInstance thread configPath name =>
    exact keeps_onContext fun ctx => keeps_opening
      (htolerant.keeps_openOn (hkeeps (keeps_start ctx configPath name)))
  | findInstance thread name =>
    exact keeps_onContext fun ctx => keeps_opening
      (htolerant.keeps_openOn (hkeeps (keeps_find ctx name)))
  | openCache thread source name =>
    exact keeps_get fun _ => keeps_opening (htolerant.keeps_openOn (hkeeps (keeps_cache _ source name)))
  | put thread cache key value =>
    exact hcalling thread (cache.put · key value) fun _ => (keeps_inOp ..).everyday
  | remove thread cache key => exact hcalling thread (cache.remove · key) fun _ => everyday_remove ..
  | size thread cache => exact hcalling thread cache.size fun _ => (keeps_inOutOp ..).everyday
  | callIn thread handle op input =>
    exact hcalling thread (handle.inOp · op input) fun _ => (keeps_inOp ..).everyday
  | callInOut thread handle op input =>
    exact hcalling thread (handle.inOutOp · op input) fun _ => (keeps_inOutOp ..).everyday
  | callAsync thread handle op input callback data =>
    exact hcalling thread (handle.inOutOpAsync · op input callback data) fun _ =>
      (keeps_inOutOpAsync ..).everyday
  | dropHandle thread handle =>
    exact keeps_bind (htolerant.keeps_releaseOn fun _ => hdaily (everyday_release ..)) fun _ =>
      keeps_pure
  | dropContext thread =>
    exact keeps_bind (htolerant.keeps_dropContextOn fun _ => hwhole _ rfl) fun _ => keeps_pure
  | _ => cases hplays

/-- The session in which the call of an act is registered, if it issues one. -/
def Act.begun (s : Session) : Act → Session
  | .issue _ _ _ _ loop reaction => { s with relay := (s.relay.begin loop reaction).2 }
  | _ => s

/-- What holds of a session whatever its users do but begin a call. -/
structure Steadfast (P : Session → Prop) : Prop extends Sturdy P where
  switched : ∀ {s : Session} (change : Switch), P s → P { s with runtime := change.apply s.runtime }

/-- What holds of a session whatever happens to it but the beginning of a call. -/
structure Lasting (P : Session → Prop) : Prop extends Steadfast P where
  worked : ∀ {s : Session} {rt : Runtime}, P s → s.runtime.work? = some rt →
    P { s with runtime := { rt with outbox := [] } }

namespace Steadfast

variable (hsteadfast : Steadfast P)
include hsteadfast

/-- A delivery takes a number off, which the relay may let go. -/
theorem keeps_deliverNext {l : LoopId} :
    Keeps P (deliverNext relayAccess (fun _ _ => pure ()) l) := by
  intro s h
  refine Yields.leaves (yields_deliverNext.mono ?_)
  rintro _ _ (rfl | ⟨id, claimed, after, hnext, rfl⟩)
  · exact h
  · exact hsteadfast.beside h rfl (sheds_claimNext? hnext)

/-- What is steadfast is left by everything that users do, however it ends. -/
theorem leaves_run (huser : act ≠ .work) (h : P (act.begun s)) : Leaves act.run P s := by
  have hsturdy : Sturdy P := hsteadfast.toSturdy
  -- what plays scripts is settled, and the others are looked at one by one
  have hplayed (hplays : act.plays = true) : Keeps P act.run :=
    hsturdy.tolerant.keeps_run (fun _ _ => trivial) hplays fun _ _ => trivial
  cases act with
  | switch change =>
    exact leaves_bind (leaves_modify (hsteadfast.switched change h)) fun _ _ h => leaves_pure h
  | issue thread handle op input loop reaction =>
    exact leaves_bind (hsturdy.leaves_issueFrom h) fun _ _ h => leaves_pure h
  | openLoop => exact keeps_bind (hsturdy.keeps_relay sheds_openLoop) (fun _ => keeps_pure) s h
  | dropLoop loop =>
    exact keeps_bind (hsturdy.keeps_relay (sheds_dropLoop · loop)) (fun _ => keeps_pure) s h
  | deliver loop => exact keeps_bind hsteadfast.keeps_deliverNext (fun _ => keeps_pure) s h
  | work => exact absurd rfl huser
  | _ => exact hplayed rfl s h

end Steadfast

namespace Lasting

variable (hlasting : Lasting P)
include hlasting

/-- A worker runs one task, and its completion is received. -/
theorem keeps_workOnce : Keeps P workOnce := by
  refine fun s h => leaves_get ?_
  cases hwork : s.runtime.work? with
  | none => exact leaves_pure h
  | some rt =>
    refine leaves_bind (leaves_modify ?_) fun _ _ h => leaves_pure h
    exact hlasting.tolerant.receiveAll (hlasting.worked h hwork)

/-- **What lasts is left by every act**, however it ends. -/
theorem leaves_run (h : P (act.begun s)) : Leaves act.run P s := by
  by_cases hturn : act = .work
  · subst hturn
    exact keeps_bind hlasting.keeps_workOnce (fun _ => keeps_pure) s h
  · exact hlasting.toSteadfast.leaves_run hturn h

end Lasting

/-! ## Numbers of references -/

/-- **Numbers of references last.** -/
theorem lasting_counted (n : Nat) : Lasting (Counted n) where
  toSturdy := sturdy_counted n
  switched change h := by cases change <;> exact h
  worked h hwork := h.of_refs (calm_work hwork).refs

/-- An opening only counts references up. -/
theorem grows_openOn {operation : Operation α} : Grows (openOn thread operation) :=
  fun n => (sturdy_counted n).tolerant.keeps_openOn (.any _)

/-- So does the end of a context. -/
theorem grows_dropContextOn : Grows (dropContextOn thread) :=
  fun n => (sturdy_counted n).tolerant.keeps_dropContextOn fun _ => .any _

/-- A context takes the place of the old one, if there is a new one. -/
theorem grows_install {hasErrorCallback : Bool} (outcome : Except BridgeError Descriptors) :
    Grows (do
      match outcome with
      | .ok descriptors =>
        let _ ← dropContextOn thread
        modify fun s => { s with
          context := some { descriptors, hasErrorCallback, describeFaults := s.describeFaults } }
        return .ok ()
      | .error e => return .error e : Step (Except BridgeError Unit)) := by
  cases outcome with
  | ok _ =>
    exact grows_bind grows_dropContextOn fun _ => grows_bind (grows_modify fun _ => rfl) fun _ =>
      grows_pure
  | error _ => exact grows_pure

/-- To take a call back touches no reference. -/
theorem grows_withdraw {l : LoopId} {id : CallId} (outcome : Except BridgeError Unit) :
    Grows (do
      match outcome with
      | .ok () => return .ok ()
      | .error e =>
        modify fun s => { s with relay := s.relay.withdraw l id }
        return .error e : Step (Except BridgeError Unit)) :=
  fun n => (sturdy_counted n).keeps_withdraw outcome

/-- An issue only counts references up. -/
theorem grows_issueFrom {handle : Handle} {op : Opcode} {input : Codec.Writer} {l : LoopId}
    {reaction : Reaction} : Grows (issueFrom thread handle op input l reaction) :=
  fun n _ h => (sturdy_counted n).leaves_issueFrom h

/-- No act takes numbers back. -/
theorem grows_run : Grows act.run := by
  intro n s h
  apply (lasting_counted n).leaves_run
  cases act <;> exact h

end GridBridge.Session
