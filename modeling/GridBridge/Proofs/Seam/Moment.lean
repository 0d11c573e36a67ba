import GridBridge.Proofs.Seam.Trace

/-!
# Moments: events together with what is pending after them

Whether an exception is pending is not part of an event: a call may raise one and answer as if
nothing had happened. A **`Moment`** is an event with what is pending after it, and
**`Script.Passes`** says which moments a script can pass through while every answer is within the
failure contract. The inversion lemmas take a passage apart along the script.
-/

namespace GridBridge.Seam

open Protocol Script

/-- What happened, and whether an exception was pending after it. -/
structure Moment where
  event : Event
  pending : Bool

namespace Script

variable {α β : Type} {p q : Bool} {moments : List Moment}

/-- The script can pass through these moments, from `p` pending at first to `q` at last, and end in
this value. The answers are within the failure contract, and otherwise arbitrary. -/
inductive Passes : Bool → Script α → List Moment → Bool → α → Prop where
  | done (p : Bool) (value : α) : Passes p (.done value) [] p value
  | call {p p' q : Bool} {request : Call} {next : request.Reply → Script α} {value : α}
      {moments : List Moment} (reply : request.Reply) (hinBand : InBand p request reply p')
      (hrest : Passes p' (next reply) moments q value) :
      Passes p (.call request next) (⟨.called request reply, p'⟩ :: moments) q value
  | report {p q : Bool} {fault : ManagedFault} {next : Script α} {value : α}
      {moments : List Moment} (hrest : Passes p next moments q value) :
      Passes p (.report fault next) (⟨.reported fault, p⟩ :: moments) q value

/-- The events of a passage are ones that the script can go through. -/
theorem Passes.follows {s : Script α} {value : α} (h : s.Passes p moments q value) :
    s.Follows (moments.map (·.event)) value := by
  induction h with
  | done p value => exact .done value
  | call reply hinBand hrest ih => exact .call reply ih
  | report hrest ih => exact .report ih

/-- Scripts in a row are passed through in a row. -/
theorem Passes.of_bind {s : Script α} {f : α → Script β} {value : β}
    (h : (s >>= f).Passes p moments q value) :
    ∃ first second r mid, moments = first ++ second ∧ s.Passes p first r mid ∧
      (f mid).Passes r second q value := by
  -- along the first script, the moments of which are cut off one by one
  induction s generalizing p moments with
  | done mid => exact ⟨[], moments, p, mid, rfl, .done p mid, h⟩
  | call request next ih =>
    rw [call_bind] at h
    cases h with
    | call reply hinBand hrest =>
      obtain ⟨first, second, r, mid, rfl, hfirst, hsecond⟩ := ih reply hrest
      exact ⟨_, second, r, mid, rfl, .call reply hinBand hfirst, hsecond⟩
  | report fault next ih =>
    rw [report_bind] at h
    cases h with
    | report hrest =>
      obtain ⟨first, second, r, mid, rfl, hfirst, hsecond⟩ := ih hrest
      exact ⟨_, second, r, mid, rfl, .report hfirst, hsecond⟩

theorem Passes.of_pure {value value' : α} (h : (pure value : Script α).Passes p moments q value') :
    moments = [] ∧ q = p ∧ value' = value := by
  cases h
  exact ⟨rfl, rfl, rfl⟩

theorem Passes.of_tell {fault : ManagedFault} {u : Unit} (h : (tell fault).Passes p moments q u) :
    moments = [⟨.reported fault, p⟩] ∧ q = p := by
  cases h with
  | report hrest =>
    cases hrest
    exact ⟨rfl, rfl⟩

theorem Passes.of_ask {request : Call} {reply : request.Reply}
    (h : (ask request).Passes p moments q reply) :
    moments = [⟨.called request reply, q⟩] ∧ InBand p request reply q := by
  cases h with
  | call reply hinBand hrest =>
    cases hrest
    exact ⟨rfl, hinBand⟩

end Script

namespace Operation

variable {α β : Type} {p q : Bool} {moments : List Moment} {outcome : Except BridgeError β}

/-- Operations in a row: either the first ends in an error, which is the error of the whole, or the
second goes on from its value. -/
theorem passes_bind {op : Operation α} {f : α → Operation β}
    (h : (op >>= f).run.Passes p moments q outcome) :
    (∃ e, outcome = .error e ∧ op.run.Passes p moments q (.error e)) ∨
      ∃ first second r value, moments = first ++ second ∧ op.run.Passes p first r (.ok value) ∧
        (f value).run.Passes r second q outcome := by
  rw [ExceptT.run_bind] at h
  obtain ⟨first, second, r, mid, rfl, hfirst, hsecond⟩ := h.of_bind
  cases mid with
  | error e =>
    obtain ⟨rfl, rfl, rfl⟩ := hsecond.of_pure
    rw [List.append_nil]
    exact .inl ⟨e, rfl, hfirst⟩
  | ok value => exact .inr ⟨first, second, r, value, rfl, hfirst, hsecond⟩

/-- A script, then an operation. -/
theorem passes_lift_bind {s : Script α} {f : α → Operation β}
    (h : ((liftM s : Operation α) >>= f).run.Passes p moments q outcome) :
    ∃ first second r value, moments = first ++ second ∧ s.Passes p first r value ∧
      (f value).run.Passes r second q outcome := by
  have hlifted : ((liftM s : Operation α) >>= f).run = s >>= fun value => (f value).run := by
    rw [ExceptT.run_bind, show (liftM s : Operation α).run = s >>= fun value => pure (.ok value)
      from rfl, bind_assoc]
    rfl
  rw [hlifted] at h
  exact h.of_bind

/-- A call, then an operation. -/
theorem passes_ask_bind {request : Call} {f : request.Reply → Operation β}
    (h : ((liftM (ask request) : Operation request.Reply) >>= f).run.Passes p moments q outcome) :
    ∃ reply p' rest, moments = ⟨.called request reply, p'⟩ :: rest ∧ InBand p request reply p' ∧
      (f reply).run.Passes p' rest q outcome := by
  obtain ⟨first, second, r, reply, rfl, hfirst, hsecond⟩ := passes_lift_bind h
  obtain ⟨rfl, hinBand⟩ := hfirst.of_ask
  exact ⟨reply, r, second, rfl, hinBand, hsecond⟩

/-- A handler goes on from the error of what it guards, if there is one. -/
theorem passes_tryCatch {op : Operation β} {handle : BridgeError → Operation β}
    (h : (tryCatch op handle).run.Passes p moments q outcome) :
    (∃ value, outcome = .ok value ∧ op.run.Passes p moments q (.ok value)) ∨
      ∃ first second r e, moments = first ++ second ∧ op.run.Passes p first r (.error e) ∧
        (handle e).run.Passes r second q outcome := by
  obtain ⟨first, second, r, mid, rfl, hfirst, hsecond⟩ := Passes.of_bind (s := op.run) h
  cases mid with
  | ok value =>
    obtain ⟨rfl, rfl, rfl⟩ := hsecond.of_pure
    rw [List.append_nil]
    exact .inl ⟨value, rfl, hfirst⟩
  | error e => exact .inr ⟨first, second, r, e, rfl, hfirst, hsecond⟩

end Operation

end GridBridge.Seam
