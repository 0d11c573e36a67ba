import GridBridge.Seam.Script

/-!
# Makes: the calls and reports in a script

**`Script.Makes`** says of a script that all its calls and all its reports are of a kind, whatever is
answered to it. It needs no state and is closed under everything that scripts are put together from;
`Makes.events` brings it down to events.
-/

namespace GridBridge.Seam

/-- Calls that neither begin nor end the life of a runtime and bind no native code. -/
def Call.everyday : Call → Bool
  | .launch _ | .destroy | .registerNatives .. => false
  | _ => true

/-- Of these, calls that give no durable reference back. -/
def Call.keeps : Call → Bool
  | .deleteGlobalRef _ => false
  | request => request.everyday

theorem Call.everyday_of_keeps {request : Call} (h : request.keeps = true) :
    request.everyday = true := by
  cases request <;> first | rfl | exact h

namespace Script

variable {α β : Type} {calls calls' : Call → Prop} {told told' : ManagedFault → Prop}

/-- Whatever is answered, the script makes only calls and reports of this kind. -/
def Makes (calls : Call → Prop) (told : ManagedFault → Prop) : Script α → Prop
  | .done _ => True
  | .call request next => calls request ∧ ∀ reply, (next reply).Makes calls told
  | .report fault next => told fault ∧ next.Makes calls told

/-- The event is a call or a report of this kind. -/
def Event.Is (calls : Call → Prop) (told : ManagedFault → Prop) : Event → Prop
  | .called request _ => calls request
  | .reported fault => told fault

namespace Makes

theorem pure (value : α) : (Pure.pure value : Script α).Makes calls told := trivial

theorem ask {request : Call} (h : calls request) : (Script.ask request).Makes calls told :=
  ⟨h, fun _ => trivial⟩

theorem tell {fault : ManagedFault} (h : told fault) : (Script.tell fault).Makes calls told :=
  ⟨h, trivial⟩

theorem bind {s : Script α} {f : α → Script β} (h : s.Makes calls told)
    (hf : ∀ value, (f value).Makes calls told) : (s >>= f).Makes calls told := by
  induction s with
  | done value => exact hf value
  | call request next ih => exact ⟨h.1, fun reply => ih reply (h.2 reply)⟩
  | report fault next ih => exact ⟨h.1, ih h.2⟩

/-- Any script makes some calls. -/
theorem any (s : Script α) : s.Makes (fun _ => True) fun _ => True := by
  induction s with
  | done value => exact trivial
  | call request next ih => exact ⟨trivial, ih⟩
  | report fault next ih => exact ⟨trivial, ih⟩

/-- More may be told. -/
theorem mono {s : Script α} (h : s.Makes calls told) (hsub : ∀ fault, told fault → told' fault) :
    s.Makes calls told' := by
  induction s with
  | done value => exact trivial
  | call request next ih => exact ⟨h.1, fun reply => ih reply (h.2 reply)⟩
  | report fault next ih => exact ⟨hsub fault h.1, ih h.2⟩

/-- More may be called. -/
theorem mono_calls {s : Script α} (h : s.Makes calls told)
    (hsub : ∀ request, calls request → calls' request) : s.Makes calls' told := by
  induction s with
  | done value => exact trivial
  | call request next ih => exact ⟨hsub request h.1, fun reply => ih reply (h.2 reply)⟩
  | report fault next ih => exact ⟨h.1, ih h.2⟩

/-! ## Operations -/

theorem throw (e : BridgeError) : (throw e : Operation α).run.Makes calls told := trivial

theorem liftExcept (x : Except BridgeError α) :
    (liftExcept x : Operation α).run.Makes calls told := by
  cases x <;> exact trivial

/-- Operations in a row. -/
theorem run_bind {op : Operation α} {f : α → Operation β} (h : op.run.Makes calls told)
    (hf : ∀ value, (f value).run.Makes calls told) : (op >>= f).run.Makes calls told := by
  rw [ExceptT.run_bind]
  refine h.bind fun outcome => ?_
  cases outcome with
  | ok value => exact hf value
  | error e => exact Makes.pure _

/-- A script, then an operation. -/
theorem lift_bind {s : Script α} {f : α → Operation β} (h : s.Makes calls told)
    (hf : ∀ value, (f value).run.Makes calls told) :
    ((liftM s : Operation α) >>= f).run.Makes calls told :=
  run_bind (h.bind fun _ => Makes.pure _) hf

/-- A call, then an operation. -/
theorem ask_bind {request : Call} {f : request.Reply → Operation β} (h : calls request)
    (hf : ∀ reply, (f reply).run.Makes calls told) :
    ((liftM (Script.ask request) : Operation request.Reply) >>= f).run.Makes calls told :=
  lift_bind (Makes.ask h) hf

/-! ## Events -/

/-- The events of such a script are of the same kind. -/
theorem events {s : Script α} {events : List Event} {value : α} (h : s.Makes calls told)
    (hfollows : s.Follows events value) : ∀ e ∈ events, e.Is calls told := by
  induction hfollows with
  | done value => exact List.forall_mem_nil _
  | call reply hrest ih => exact List.forall_mem_cons.mpr ⟨h.1, ih (h.2 reply)⟩
  | report hrest ih => exact List.forall_mem_cons.mpr ⟨h.1, ih h.2⟩

end Makes

end Script

end GridBridge.Seam
