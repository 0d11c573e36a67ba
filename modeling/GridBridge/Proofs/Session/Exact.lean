import GridBridge.Proofs.Managed.Desk
import GridBridge.Proofs.Session.Play

/-!
# Exact answers: what a script gives when a session plays it

The loopback runtime as a contract says what a script gives, and **`partly_play`** that a session that
plays the script gives the same. **`Partly`** says how a step ends if it does end in a value, before
numbers come round; that it does so is what `Within` says.
-/

namespace GridBridge.Session

open Protocol Seam Bridge Managed Relay

variable {α β : Type} {thread : ThreadId} {s s' : Session}

/-! ## Steps that end in a value -/

/-- If the step ends in a value and numbers have not come round, then as the postcondition says. -/
def Partly (x : Step α) (Q : α → Session → Prop) (s : Session) : Prop :=
  Ends x (fun value s' => InRange s' → Q value s') s

/-- A value is given as it is. -/
theorem partly_pure {value : α} {Q : α → Session → Prop} (h : Q value s) : Partly (pure value) Q s :=
  ends_pure fun _ => h

/-- A change of the session. -/
theorem partly_modify {f : Session → Session} {Q : PUnit → Session → Prop} (h : Q ⟨⟩ (f s)) :
    Partly (modify f) Q s :=
  ends_modify fun _ => h

/-- A change that gives a value. -/
theorem partly_modifyGet {f : Session → α × Session} {Q : α → Session → Prop}
    (h : Q (f s).1 (f s).2) : Partly (modifyGet f) Q s := by
  intro value s' hrun _
  cases hrun
  exact h

/-- What follows is looked at where the session is. -/
theorem partly_get {f : Session → Step β} {Q : β → Session → Prop} (h : Partly (f s) Q s) :
    Partly (get >>= f) Q s :=
  h

/-- Numbers that are in range at the end were in range in between. -/
theorem partly_bind {x : Step α} {f : α → Step β} {Q : β → Session → Prop}
    (hf : ∀ value, Grows (f value)) (h : Partly x (fun value => Partly (f value) Q) s) :
    Partly (x >>= f) Q s := by
  refine ends_bind (h.mono ?_)
  intro value s' hrest last s'' hrun hinRange
  -- the first step ended in range, since the second one takes no number back
  refine hrest ?_ last s'' hrun hinRange
  refine (hf value).inRange ?_
  unfold Leaves
  rw [hrun]
  exact hinRange

/-- What is known may be said more loosely. -/
theorem Partly.mono {x : Step α} {Q Q' : α → Session → Prop} (h : Partly x Q s)
    (hQ : ∀ value s', Q value s' → Q' value s') : Partly x Q' s :=
  Ends.mono h fun value s' hvalue hinRange => hQ value s' (hvalue hinRange)

/-- A step that ends in a value, and so and so if it does. -/
theorem Within.and_partly {x : Step α} {Q Q' : α → Session → Prop} (h : Within x Q s)
    (h' : Partly x Q' s) : Within x (fun value s' => Q value s' ∧ Q' value s') s := by
  intro hrange
  refine (((h hrange).of_ends h').of_leaves hrange).mono ?_
  rintro value s' ⟨⟨hvalue, hvalue'⟩, hinRange⟩
  exact ⟨hvalue, hvalue' hinRange⟩

/-! ## Around the runtime -/

/-- Scripts leave the context alone, what stands between them and the runtime, and the number of the
next call. -/
structure Beside (s s' : Session) : Prop where
  steady : Steady s s'
  next : s'.relay.nextCall = s.relay.nextCall

/-- Nothing has changed. -/
theorem Beside.refl (s : Session) : Beside s s := ⟨Steady.refl s, rfl⟩

/-- One script after another. -/
theorem Beside.trans {s'' : Session} (h : Beside s s') (h' : Beside s' s'') : Beside s s'' :=
  ⟨h.steady.trans h'.steady, h'.next.trans h.next⟩

/-- A signal gives out no number. -/
theorem nextCall_signal (r : Relay Reaction) (id : CallId) (payload : Completion) :
    (r.signal id payload).nextCall = r.nextCall := by
  cases hknown : (r.take id).1 with
  | none => rw [signal_of_unknown hknown]
  | some l =>
    rw [signal_of_known hknown]
    rfl

/-- So a completion that is received gives out none. -/
theorem nextCall_receiveSignal (s : Session) (signal : Signal) :
    (receiveSignal s signal).relay.nextCall = s.relay.nextCall := by
  unfold receiveSignal receiveCompletion receiveAt
  split
  · split
    · split
      · split
        · exact nextCall_signal ..
        · rfl
      · rfl
    · rfl
  · rfl

/-- All completions are received beside context and tap. -/
theorem beside_receiveAll (s : Session) : Beside s (receiveAll s) := by
  refine ⟨(receiveAll_spec s).2, ?_⟩
  unfold receiveAll
  -- over the signals, oldest first
  have heach (signals : List Signal) (s : Session) :
      (signals.foldl receiveSignal s).relay.nextCall = s.relay.nextCall := by
    induction signals generalizing s with
    | nil => rfl
    | cons signal rest ih => exact (ih _).trans (nextCall_receiveSignal s signal)
  exact heach ..

/-! ## Playing scripts -/

/-- What the runtime answers directly is what its contract says. -/
theorem partly_answerDirect {request : Call} :
    Partly (answerDirect thread request) (fun reply s' =>
      (loopback thread).answers s.runtime request reply s'.runtime ∧ Beside s s') s := by
  refine ends_bind (ends_get ?_)
  cases hrun : (Managed.answer thread request).run.run s.runtime with
  | mk outcome rt =>
    refine ends_bind (ends_set ?_)
    have hbeside := beside_receiveAll { s with runtime := rt }
    have hruntime := (receiveAll_spec { s with runtime := rt }).1
    cases outcome with
    | error cause => exact ends_throw
    | ok reply =>
      refine ends_pure fun hinRange => ⟨⟨hinRange, rt, hrun, hruntime⟩, ?_⟩
      exact ⟨⟨hbeside.steady.context, hbeside.steady.substitutes, hbeside.steady.holding⟩, hbeside.next⟩

/-- With nothing in between, the runtime answers itself, and the call is traced. -/
theorem comes_answer (huntapped : Untapped s) {request : Call} {Q : request.Reply → Session → Prop}
    {E : Fatal → Session → Prop} (hdirect : Comes (answerDirect thread request)
      (fun reply s' => ∀ line, Q reply { s' with tap := s'.tap.trace line }) E s) :
    Comes (answer thread request) Q E s := by
  have hheld : Comes (answerOrHold thread request)
      (fun reply s' => ∀ line, Q reply { s' with tap := s'.tap.trace line }) E s := by
    unfold answerOrHold
    split
    · refine comes_get ?_
      rw [huntapped.holding]
      exact hdirect
    · exact hdirect
  -- no substitute was there, so none is used up
  have hsame : { s with tap := { s.tap with substitutes := [] } } = s := by rw [← huntapped.substitutes]
  refine comes_bind (comes_get ?_)
  rw [huntapped.substitutes]
  refine comes_bind (comes_set ?_)
  rw [hsame]
  refine comes_bind (hheld.mono (fun reply s' htraced => ?_) fun _ _ hended => hended)
  exact comes_pure (comes_bind (comes_modify (comes_pure (htraced _))))

/-- With nothing in between this is what the script is answered. -/
theorem partly_answer (hs : Untapped s) {request : Call} {Q : request.Reply → Session → Prop}
    (hdirect : Partly (answerDirect thread request)
      (fun reply s' => ∀ line, Q reply { s' with tap := s'.tap.trace line }) s) :
    Partly (answer thread request) Q s :=
  (comes_answer hs (Ends.mono hdirect fun _ _ htraced line hinRange => htraced hinRange
    line).comes).ends

/-- A line in the trace changes nothing else. -/
theorem steady_trace (s : Session) (line : String) :
    Steady s { s with tap := s.tap.trace line } := by
  unfold Tap.trace
  split <;> exact ⟨rfl, rfl, rfl⟩

/-- **What the loopback runtime gives, the session gives.** -/
theorem partly_play {script : Script α} {Q : α → Runtime → Prop}
    (hscript : script.wp (loopback thread) Q s.runtime) (hs : Untapped s) :
    Partly (play thread script) (fun value s' => Q value s'.runtime ∧ Beside s s') s := by
  induction script generalizing s with
  | done value => exact partly_pure ⟨hscript, Beside.refl s⟩
  | call request next ih =>
    refine partly_bind (fun reply => grows_play (next reply)) (partly_answer hs ?_)
    refine partly_answerDirect.mono fun reply s' ⟨hanswers, hbeside⟩ line => ?_
    have htraced : Beside s { s' with tap := s'.tap.trace line } :=
      hbeside.trans ⟨steady_trace s' line, rfl⟩
    have hrest := hscript.2 reply _ hanswers
    refine (ih reply (s := { s' with tap := s'.tap.trace line }) hrest
      (htraced.steady.untapped hs)).mono ?_
    exact fun value s'' ⟨hvalue, hbeside'⟩ => ⟨hvalue, htraced.trans hbeside'⟩
  | report fault next ih =>
    refine partly_bind (fun _ => grows_play next) (partly_modify ?_)
    split
    -- a fault that is reported is noted down, if there is someone to hear it
    · refine (ih (s := { s with reported := s.reported ++ [fault] }) hscript
        ⟨hs.substitutes, hs.holding⟩).mono ?_
      rintro value s' ⟨hvalue, ⟨hcontext, hsubstitutes, hholding⟩, hnext⟩
      exact ⟨hvalue, ⟨hcontext, hsubstitutes, hholding⟩, hnext⟩
    · exact ih hscript hs

/-! ## Operations -/

/-- The outcome of an operation, with one postcondition for its value and one for its error. -/
def Met (Q : α → Runtime → Prop) (E : BridgeError → Runtime → Prop) :
    Except BridgeError α → Runtime → Prop
  | .ok value => Q value
  | .error e => E e

variable {operation : Operation α} {Q : α → Runtime → Prop} {E : BridgeError → Runtime → Prop}

/-- An operation that is performed gives what its contract says. -/
theorem partly_perform (hop : Operation.wp (loopback thread) operation Q E s.runtime)
    (hs : Untapped s) :
    Partly (perform thread operation) (fun outcome s' => Met Q E outcome s'.runtime ∧ Beside s s')
      s := by
  refine (partly_play hop hs).mono ?_
  rintro (e | value) s' ⟨hended, hbeside⟩ <;> exact ⟨hended, hbeside⟩

/-- A handle that is counted changes neither the runtime nor the numbers of calls. -/
theorem partly_openOn (hop : Operation.wp (loopback thread) operation Q E s.runtime)
    (hs : Untapped s) :
    Partly (openOn thread operation) (fun outcome s' =>
      Met Q E outcome s'.runtime ∧ s'.relay.nextCall = s.relay.nextCall) s := by
  unfold openOn
  refine partly_bind (fun outcome => ?_) ((partly_perform hop hs).mono ?_)
  · cases outcome with
    | ok opened => exact grows_bind (grows_modify fun _ => rfl) fun _ => grows_pure
    | error e => exact grows_pure
  · rintro (e | opened) s' ⟨hended, hbeside⟩
    · exact partly_pure ⟨hended, hbeside.next⟩
    · refine partly_bind (fun _ => grows_pure) (partly_modify (partly_pure ⟨hended, hbeside.next⟩))

end GridBridge.Session
