import GridBridge.Seam.Script

/-!
# Contracts: what a script asks of a runtime and what it counts on

A script is judged against a **`Contract`**: over a state that is kept about the runtime, it says
which calls may be made (`takes`) and which answers may come back (`answers`). **`Script.wp`** is the
weakest precondition of a script under a contract: it makes only calls that are taken, and whatever
answers come back, its value and the last state satisfy the postcondition.

The rules `wp_bind`, `wp_ask` and their likes for `Operation` take a script apart call by call.
`wp_follows` brings the judgement back to the events that a script can go through.
-/

namespace GridBridge.Seam

variable {σ α β : Type}

/-- What may be asked of a runtime and what it may answer, in terms of a state kept about it. -/
structure Contract (σ : Type) where
  takes : σ → Call → Prop
  answers : σ → (request : Call) → request.Reply → σ → Prop

namespace Script

variable (c : Contract σ)

/-- The weakest precondition of a script. -/
def wp : Script α → (α → σ → Prop) → σ → Prop
  | .done value, Q, s => Q value s
  | .call request next, Q, s =>
    c.takes s request ∧ ∀ reply s', c.answers s request reply s' → (next reply).wp Q s'
  | .report _ next, Q, s => next.wp Q s

variable {c}

/-- A script that asks nothing ends where it is. -/
@[simp] theorem wp_done {value : α} {Q : α → σ → Prop} {s : σ} :
    (Script.done value).wp c Q s ↔ Q value s := Iff.rfl

/-- A value is given where the script is. -/
@[simp] theorem wp_pure {value : α} {Q : α → σ → Prop} {s : σ} :
    (pure value : Script α).wp c Q s ↔ Q value s := Iff.rfl

/-- Scripts in a row: the first has to end in a state where the second may start. -/
theorem wp_bind {x : Script α} {f : α → Script β} {Q : β → σ → Prop} {s : σ} :
    (x >>= f).wp c Q s ↔ x.wp c (fun value => (f value).wp c Q) s := by
  induction x generalizing s with
  | done value => rfl
  | call request next ih =>
    rw [call_bind]
    unfold wp
    exact and_congr_right fun _ => forall_congr' fun reply => forall_congr' fun s' =>
      imp_congr_right fun _ => ih reply
  | report fault next ih => exact ih

/-- A value that is reworked. -/
@[simp] theorem wp_map {x : Script α} {f : α → β} {Q : β → σ → Prop} {s : σ} :
    (f <$> x).wp c Q s ↔ x.wp c (fun value => Q (f value)) s := by
  rw [map_eq_pure_bind, wp_bind]
  rfl

/-- A postcondition may be said more loosely. -/
theorem wp_mono {x : Script α} {Q Q' : α → σ → Prop} {s : σ} (h : x.wp c Q s)
    (hQ : ∀ value s', Q value s' → Q' value s') : x.wp c Q' s := by
  induction x generalizing s with
  | done value => exact hQ value s h
  | call request next ih =>
    obtain ⟨htakes, hnext⟩ := h
    exact ⟨htakes, fun reply s' hanswers => ih reply (hnext reply s' hanswers)⟩
  | report fault next ih => exact ih h

/-- One call is taken, and whatever comes back is enough. -/
theorem wp_ask {request : Call} {Q : request.Reply → σ → Prop} {s : σ} :
    (ask request).wp c Q s ↔
      c.takes s request ∧ ∀ reply s', c.answers s request reply s' → Q reply s' := Iff.rfl

/-- A report changes nothing of the state. -/
@[simp] theorem wp_tell {fault : ManagedFault} {Q : Unit → σ → Prop} {s : σ} :
    (tell fault).wp c Q s ↔ Q () s := Iff.rfl

end Script

/-! ## Events -/

/-- The answers in these events are ones that the contract counts on. -/
inductive Contract.Run (c : Contract σ) : σ → List Script.Event → σ → Prop where
  | done (s : σ) : Run c s [] s
  | called {s s' s'' : σ} {request : Call} {reply : request.Reply} {events : List Script.Event}
      (hanswers : c.answers s request reply s') (hrest : Run c s' events s'') :
      Run c s (.called request reply :: events) s''
  | reported {s s' : σ} {fault : ManagedFault} {events : List Script.Event}
      (hrest : Run c s events s') : Run c s (.reported fault :: events) s'

/-- A run of answers in which every call is one that is taken. -/
inductive Contract.Kept (c : Contract σ) : σ → List Script.Event → σ → Prop where
  | done (s : σ) : Kept c s [] s
  | called {s s' s'' : σ} {request : Call} {reply : request.Reply} {events : List Script.Event}
      (htakes : c.takes s request) (hanswers : c.answers s request reply s')
      (hrest : Kept c s' events s'') : Kept c s (.called request reply :: events) s''
  | reported {s s' : σ} {fault : ManagedFault} {events : List Script.Event}
      (hrest : Kept c s events s') : Kept c s (.reported fault :: events) s'

/-- Whatever a script goes through, as long as the answers keep to the contract, so do its calls, and
it ends well. -/
theorem Script.wp_follows {c : Contract σ} {x : Script α} {Q : α → σ → Prop} {s s' : σ}
    {events : List Script.Event} {value : α} (h : x.wp c Q s) (hfollows : x.Follows events value)
    (hrun : c.Run s events s') : Q value s' ∧ c.Kept s events s' := by
  induction hfollows generalizing s with
  | done value =>
    cases hrun
    exact ⟨h, .done _⟩
  | call reply hrest ih =>
    cases hrun with
    | called hanswers hrun =>
      obtain ⟨hvalue, hkept⟩ := ih (h.2 reply _ hanswers) hrun
      exact ⟨hvalue, .called h.1 hanswers hkept⟩
  | report hrest ih =>
    cases hrun with
    | reported hrun =>
      obtain ⟨hvalue, hkept⟩ := ih h hrun
      exact ⟨hvalue, .reported hkept⟩

/-- Every call on the way was taken in the state that the calls before it had led to. -/
theorem Contract.Kept.taken {c : Contract σ} {s s' : σ} {before after : List Script.Event}
    {request : Call} {reply : request.Reply}
    (h : c.Kept s (before ++ .called request reply :: after) s') :
    ∃ mid, c.Kept s before mid ∧ c.takes mid request := by
  induction before generalizing s with
  | nil =>
    cases h with
    | called hfirst _ _ => exact ⟨_, .done _, hfirst⟩
  | cons first before ih =>
    cases h with
    | called hfirst hanswers hrest =>
      obtain ⟨mid, hkept, htakes⟩ := ih hrest
      exact ⟨mid, .called hfirst hanswers hkept, htakes⟩
    | reported hrest =>
      obtain ⟨mid, hkept, htakes⟩ := ih hrest
      exact ⟨mid, .reported hkept, htakes⟩

/-! ## Operations -/

namespace Operation

open Script

/-- The weakest precondition of an operation, with one postcondition for its value and one for its
error. -/
def wp (c : Contract σ) (op : Operation α) (Q : α → σ → Prop) (E : BridgeError → σ → Prop) (s : σ) :
    Prop :=
  op.run.wp c (fun outcome => match outcome with | .ok value => Q value | .error e => E e) s

variable {c : Contract σ} {E : BridgeError → σ → Prop} {s : σ}

/-- An operation that gives a value. -/
theorem wp_pure {value : α} {Q : α → σ → Prop} :
    wp c (pure value : Operation α) Q E s ↔ Q value s := Iff.rfl

/-- An operation that fails. -/
theorem wp_throw {e : BridgeError} {Q : α → σ → Prop} :
    wp c (throw e : Operation α) Q E s ↔ E e s := Iff.rfl

/-- Operations in a row. An error ends them. -/
theorem wp_bind {x : Operation α} {f : α → Operation β} {Q : β → σ → Prop} :
    wp c (x >>= f) Q E s ↔ wp c x (fun value => wp c (f value) Q E) E s := by
  unfold wp
  rw [ExceptT.run_bind, Script.wp_bind]
  -- an error skips the second operation on both sides
  constructor <;> intro h <;> refine wp_mono h ?_ <;> rintro (e | value) s' hs' <;> exact hs'

/-- A script is an operation that does not fail. -/
theorem wp_lift {x : Script α} {Q : α → σ → Prop} :
    wp c (liftM x : Operation α) Q E s ↔ x.wp c Q s := by
  unfold wp
  rw [show (liftM x : Operation α).run = Except.ok <$> x from rfl, wp_map]

/-- A script and what comes after it. -/
theorem wp_lift_bind {x : Script α} {f : α → Operation β} {Q : β → σ → Prop} :
    wp c ((liftM x : Operation α) >>= f) Q E s ↔ x.wp c (fun value => wp c (f value) Q E) s :=
  wp_bind.trans wp_lift

/-- A check without calls. -/
theorem wp_liftExcept {x : Except BridgeError α} {Q : α → σ → Prop} :
    wp c (liftExcept x : Operation α) Q E s ↔
      match x with | .ok value => Q value s | .error e => E e s := by
  cases x <;> rfl

/-- Where an operation fails the handler goes on. -/
theorem wp_tryCatch {x : Operation α} {handle : BridgeError → Operation α} {Q : α → σ → Prop} :
    wp c (tryCatch x handle) Q E s ↔ wp c x Q (fun e => wp c (handle e) Q E) s := by
  -- as a script, the handler looks at the outcome
  have hrun : (tryCatch x handle : Operation α).run = (x.run >>= fun outcome =>
      match outcome with
      | .error e => (handle e).run
      | .ok value => pure (.ok value)) := by
    show (x.run >>= fun outcome => _) = _
    congr 1
    funext outcome
    cases outcome <;> rfl
  unfold wp
  rw [hrun, Script.wp_bind]
  constructor <;> intro h <;> refine wp_mono h ?_ <;> rintro (e | value) s' hs' <;> exact hs'

end Operation

end GridBridge.Seam
