import GridBridge.Proofs.Managed.Answer
import GridBridge.Proofs.Managed.Durable
import GridBridge.Proofs.Relay.Numbers
import GridBridge.Session.Operations

/-!
# Playing scripts: what the contract says comes true

A script that keeps to the strict contract is played against the loopback runtime without a fatal
use, ends as its weakest precondition says, and the ledger stays right (**`within_play`**). Nothing
may stand between the script and the runtime (`Untapped`), and the numbers of references may not
have come round when it ends (`Within`). Whatever the script, what no call breaks it keeps
(**`Sturdy`**, `keeps_play`), as that numbers only go up (`Grows`).
-/

namespace GridBridge.Session

open Protocol Seam Bridge Managed

variable {α β : Type} {origin : Phase} {thread : ThreadId} {s s' : Session} {ℓ : Ledger} {n : Nat}

/-! ## Steps and numbers -/

/-- The numbers of references have come as far as `n`. -/
def Counted (n : Nat) (s : Session) : Prop := Reached n s.runtime

/-- The step does not take numbers back, however it ends. -/
def Grows (x : Step α) : Prop := ∀ n s, Counted n s → Leaves x (Counted n) s

/-- The numbers of references have not come round. -/
def InRange (s : Session) : Prop := s.runtime.refs.next ≤ 2 ^ 64

/-- Unless numbers come round on the way, the step ends in a value, as the postcondition says. -/
def Within (x : Step α) (Q : α → Session → Prop) (s : Session) : Prop :=
  Leaves x InRange s → Yields x Q s

/-- Numbers that are in range at the end of a step were in range before it. -/
theorem Grows.inRange {x : Step α} (hx : Grows x) (hleaves : Leaves x InRange s) : InRange s :=
  Nat.le_trans (hx s.runtime.refs.next s (Nat.le_refl _)) hleaves

/-! ## What steps keep -/

/-- What holds before the step holds after it, however it ends. -/
def Keeps (P : Session → Prop) (x : Step α) : Prop := ∀ s, P s → Leaves x P s

section Keeps

variable {P : Session → Prop}

theorem keeps_pure {value : α} : Keeps P (pure value) := fun _ h => leaves_pure h

/-- What both of two steps keep, both in a row keep. -/
theorem keeps_bind {x : Step α} {f : α → Step β} (hx : Keeps P x) (hf : ∀ value, Keeps P (f value)) :
    Keeps P (x >>= f) :=
  fun s h => leaves_bind (hx s h) fun value s' h => hf value s' h

/-- Looking at the session breaks nothing. -/
theorem keeps_get {f : Session → Step β} (hf : ∀ s, Keeps P (f s)) : Keeps P (get >>= f) :=
  fun s h => leaves_get (hf s s h)

/-- A change keeps what it leaves true. -/
theorem keeps_modify {f : Session → Session} (hf : ∀ s, P s → P (f s)) : Keeps P (modify f) :=
  fun s h => leaves_modify (hf s h)

end Keeps

theorem grows_pure {value : α} : Grows (pure value) := fun _ => keeps_pure

/-- Two steps in a row take no number back if neither of them does. -/
theorem grows_bind {x : Step α} {f : α → Step β} (hx : Grows x) (hf : ∀ value, Grows (f value)) :
    Grows (x >>= f) :=
  fun n => keeps_bind (hx n) fun value => hf value n

/-- Looking at the session takes no number back. -/
theorem grows_get {f : Session → Step β} (hf : ∀ s, Grows (f s)) : Grows (get >>= f) :=
  fun n => keeps_get fun s => hf s n

/-- A step that is done at the end in any case takes no number back either. -/
theorem grows_finally {x : Step α} {y : Step β} (hx : Grows x) (hy : Grows y) :
    Grows (try x finally y) :=
  fun n s h => leaves_finally (leaves_mono (hx n s h) fun s' h => hy n s' h)

/-- A change that leaves the references alone takes no number back. -/
theorem grows_modify {f : Session → Session} (hf : ∀ s, (f s).runtime.refs = s.runtime.refs) :
    Grows (modify f) :=
  fun _ => keeps_modify fun s h => h.of_refs (hf s)

theorem within_pure {value : α} {Q : α → Session → Prop} (h : Q value s) :
    Within (pure value) Q s :=
  fun _ => yields_pure h

theorem within_modify {f : Session → Session} {Q : PUnit → Session → Prop} (h : Q ⟨⟩ (f s)) :
    Within (modify f) Q s :=
  fun _ => yields_modify h

theorem within_modifyGet {f : Session → α × Session} {Q : α → Session → Prop}
    (h : Q (f s).1 (f s).2) : Within (modifyGet f) Q s :=
  fun _ => yields_modifyGet h

/-- A step that looks at the session first. -/
theorem within_get {f : Session → Step β} {Q : β → Session → Prop} (h : Within (f s) Q s) :
    Within (get >>= f) Q s :=
  h

/-- Numbers that are in range at the end were in range after the first part. -/
theorem inRange_first {x : Step α} {f : α → Step β} (hf : ∀ value, Grows (f value))
    (h : Leaves (x >>= f) InRange s) : Leaves x InRange s := by
  unfold Leaves at h ⊢
  rw [ExceptT.run_bind, StateT.run_bind] at h
  cases hrun : x.run.run s with
  | mk outcome s' =>
    rw [hrun] at h
    cases outcome with
    | ok value => exact (hf value).inRange h
    | error cause => exact h

/-- Steps in a row. Numbers that are in range at the end were in range in between. -/
theorem within_bind {x : Step α} {f : α → Step β} {Q : β → Session → Prop}
    (hf : ∀ value, Grows (f value)) (h : Within x (fun value => Within (f value) Q) s) :
    Within (x >>= f) Q s := by
  intro hrange
  obtain ⟨value, s', hrun, hvalue⟩ := h (inRange_first hf hrange)
  obtain ⟨value', s'', hrun', hQ⟩ := hvalue (hrange.after hrun)
  refine ⟨value', s'', ?_, hQ⟩
  rw [ExceptT.run_bind, StateT.run_bind, hrun]
  exact hrun'

/-- What has to be done at the end is done in numbers that are in range, too. -/
theorem within_finally {x : Step α} {y : Step β} {Q : α → Session → Prop} (hy : Grows y)
    (h : Within x (fun value => Within y fun _ => Q value) s) : Within (try x finally y) Q s := by
  intro hrange
  -- the last part runs in what the first leaves, so its numbers are those at the end
  have hlast : Leaves y InRange (x.run.run s).2 := by
    unfold Leaves at hrange
    rw [run_finally] at hrange
    exact hrange
  obtain ⟨value, s', hrun, hvalue⟩ := h (hy.inRange hlast)
  rw [hrun] at hlast
  exact yields_finally ⟨value, s', hrun, hvalue hlast⟩

/-- What the step leaves behind is known beside what it comes to. -/
theorem Within.of_leaves {x : Step α} {Q : α → Session → Prop} {P : Session → Prop}
    (h : Within x Q s) (hP : Leaves x P s) : Within x (fun value s' => Q value s' ∧ P s') s :=
  fun hrange => (h hrange).of_leaves hP

/-- A weaker postcondition will do. -/
theorem Within.mono {x : Step α} {Q Q' : α → Session → Prop} (h : Within x Q s)
    (hQ : ∀ value s', Q value s' → Q' value s') : Within x Q' s :=
  fun hrange => (h hrange).mono hQ

/-! ## What surrounds the runtime -/

/-- Nothing answers in place of the runtime, and no call is held back. -/
structure Untapped (s : Session) : Prop where
  substitutes : s.tap.substitutes = []
  holding : s.tap.holding = false

/-- The context is the same, and so is what stands between scripts and the runtime. -/
structure Steady (s s' : Session) : Prop where
  context : s'.context = s.context
  substitutes : s'.tap.substitutes = s.tap.substitutes
  holding : s'.tap.holding = s.tap.holding

/-- A session is steady where nothing happens. -/
theorem Steady.refl (s : Session) : Steady s s := ⟨rfl, rfl, rfl⟩

/-- What is steady step by step is steady over both. -/
theorem Steady.trans {s'' : Session} (h : Steady s s') (h' : Steady s' s'') : Steady s s'' :=
  ⟨h'.context.trans h.context, h'.substitutes.trans h.substitutes, h'.holding.trans h.holding⟩

/-- In a steady session nothing has come to stand between scripts and the runtime. -/
theorem Steady.untapped (h : Steady s s') (hs : Untapped s) : Untapped s' :=
  ⟨h.substitutes.trans hs.substitutes, h.holding.trans hs.holding⟩

/-- A completion reaches the relay or the journal, and nothing else. -/
theorem receiveCompletion_spec (s : Session) (callback data : Word) (completion : Completion) :
    (receiveCompletion s callback data completion).runtime = s.runtime ∧
      Steady s (receiveCompletion s callback data completion) := by
  unfold receiveCompletion
  split
  · unfold receiveAt
    split
    · split <;> exact ⟨rfl, rfl, rfl, rfl⟩
    · exact ⟨rfl, rfl, rfl, rfl⟩
  · exact ⟨rfl, Steady.refl s⟩

/-- A signal reaches relay or journal, and nothing else. -/
theorem receiveSignal_spec (s : Session) (signal : Signal) :
    (receiveSignal s signal).runtime = s.runtime ∧ Steady s (receiveSignal s signal) := by
  unfold receiveSignal
  split
  · exact receiveCompletion_spec ..
  · exact ⟨rfl, rfl, rfl, rfl⟩

/-- So do many, one after the other. -/
theorem receiveSignals_spec (signals : List Signal) (s : Session) :
    (signals.foldl receiveSignal s).runtime = s.runtime ∧
      Steady s (signals.foldl receiveSignal s) := by
  induction signals generalizing s with
  | nil => exact ⟨rfl, Steady.refl _⟩
  | cons signal rest ih =>
    obtain ⟨hruntime, hsteady⟩ := receiveSignal_spec s signal
    obtain ⟨hruntime', hsteady'⟩ := ih (receiveSignal s signal)
    exact ⟨hruntime'.trans hruntime, hsteady.trans hsteady'⟩

/-- Taking completions in only empties the outbox of the runtime. -/
theorem receiveAll_spec (s : Session) :
    (receiveAll s).runtime = { s.runtime with outbox := [] } ∧ Steady s (receiveAll s) := by
  obtain ⟨hruntime, hsteady⟩ :=
    receiveSignals_spec s.runtime.outbox { s with runtime := { s.runtime with outbox := [] } }
  exact ⟨hruntime, ⟨hsteady.context, hsteady.substitutes, hsteady.holding⟩⟩

/-- The runtime is calm about it: no reference, no exception and no phase depends on its outbox. -/
theorem calm_receiveAll (s : Session) : s.runtime.Calm (receiveAll s).runtime := by
  rw [(receiveAll_spec s).1]
  exact ⟨rfl, rfl, rfl, rfl⟩

/-! ## What calls of a kind do not break -/

/-- What holds of a session while calls of this kind are played: it depends on runtime and relay only,
signals may come in, and the runtime may answer. Looking a missing class up is how substitutes raise. -/
structure Tolerant (calls : Call → Prop) (P : Session → Prop) : Prop where
  beside : ∀ {s s' : Session}, P s → s'.runtime = s.runtime → s'.relay = s.relay → P s'
  signalled : ∀ {s : Session} (id : Relay.CallId) (completion : Completion), P s →
    P { s with relay := s.relay.signal id completion }
  answered : ∀ {s : Session} (thread : ThreadId) (request : Call), calls request → P s → P { s with
    runtime := { ((Managed.answer thread request).run.run s.runtime).2 with outbox := [] } }
  looksUp : ∀ name, calls (.findClass name)

namespace Tolerant

variable {calls : Call → Prop} {told : ManagedFault → Prop} {P : Session → Prop}
  (htolerant : Tolerant calls P)
include htolerant

/-- A completion is a signal to the relay, or it is written down beside it. -/
theorem receiveCompletion {callback data : Word} {completion : Completion} (h : P s) :
    P (receiveCompletion s callback data completion) := by
  unfold Session.receiveCompletion receiveAt
  split
  · split
    · split
      · exact htolerant.signalled _ completion h
      · exact h
    · exact htolerant.beside h rfl rfl
  · exact h

/-- The runtime has handed completions out, and they are received. -/
theorem receiveAll {rt : Runtime} (h : P { s with runtime := { rt with outbox := [] } }) :
    P (receiveAll { s with runtime := rt }) := by
  -- over the signals, oldest first
  have heach (signals : List Signal) : ∀ s, P s → P (signals.foldl receiveSignal s) := by
    induction signals with
    | nil => exact fun s h => h
    | cons signal rest ih =>
      refine fun s h => ih _ ?_
      unfold receiveSignal
      split
      · exact htolerant.receiveCompletion h
      · exact htolerant.beside h rfl rfl
  exact heach _ _ h

/-- An answer of the runtime, with the completions that it hands out. -/
theorem keeps_answerDirect {request : Call} (hmade : calls request) :
    Keeps P (answerDirect thread request) := by
  intro s h
  have hreceived := htolerant.receiveAll (htolerant.answered thread request hmade h)
  refine leaves_get (leaves_bind (leaves_set hreceived) fun _ s' h => ?_)
  split
  · exact leaves_pure h
  · exact leaves_throw h

/-- An answer in place of the runtime, with what that does on the side. -/
theorem keeps_answerSubstitute {substitute : Substitute} {request : Call} :
    Keeps P (answerSubstitute thread substitute request) := by
  -- the two things that an answer in place of the runtime may do on the side
  have hcomplete : Keeps P (completeFor substitute request) := by
    unfold completeFor
    split
    · exact keeps_modify fun s h => htolerant.receiveCompletion h
    · exact keeps_pure
  have hraise : Keeps P (raiseFor thread substitute request) := by
    unfold raiseFor
    split
    · split
      · exact keeps_bind (htolerant.keeps_answerDirect (htolerant.looksUp _)) fun _ => keeps_pure
      · exact keeps_pure
    · exact keeps_pure
  exact keeps_bind hcomplete fun _ => keeps_bind hraise fun _ => keeps_pure

/-- A call that is held back is noted beside runtime and relay, and any other is answered. -/
theorem keeps_answerOrHold {request : Call} (hmade : calls request) :
    Keeps P (answerOrHold thread request) := by
  unfold answerOrHold
  split
  · refine keeps_get fun s => ?_
    split
    · exact keeps_modify fun s h => htolerant.beside h rfl rfl
    · exact htolerant.keeps_answerDirect hmade
  · exact htolerant.keeps_answerDirect hmade

/-- However a call of the kind is answered, what such calls do not break is kept. -/
theorem keeps_answer {request : Call} (hmade : calls request) : Keeps P (answer thread request) := by
  refine keeps_bind ?_ fun answered => keeps_bind ?_ fun _ => keeps_pure
  · intro s h
    refine leaves_get (leaves_bind (leaves_set (htolerant.beside h rfl rfl)) fun _ s' h => ?_)
    split
    · exact htolerant.keeps_answerSubstitute s' h
    · exact leaves_bind (htolerant.keeps_answerOrHold hmade s' h) fun _ _ h => leaves_pure h
  · exact keeps_modify fun s h => htolerant.beside h rfl rfl

/-- **What calls of a kind do not break, a script of such calls keeps.** -/
theorem keeps_play {script : Script α} (hmakes : script.Makes calls told) :
    Keeps P (play thread script) := by
  induction script with
  | done value => exact keeps_pure
  | call request next ih =>
    exact keeps_bind (htolerant.keeps_answer hmakes.1) fun reply => ih reply (hmakes.2 reply)
  -- a report is noted or not, and neither touches runtime or relay
  | report fault next ih =>
    refine keeps_bind (keeps_modify fun s h => ?_) fun _ => ih hmakes.2
    split
    · exact htolerant.beside h rfl rfl
    · exact h

end Tolerant

/-! ## What no call breaks -/

/-- What holds of a session whatever is played: it depends on runtime and relay only, the relay may let
numbers of calls go, and the runtime may answer any call. -/
structure Sturdy (P : Session → Prop) : Prop where
  beside : ∀ {s s' : Session}, P s → s'.runtime = s.runtime → s.relay.Sheds s'.relay → P s'
  answered : ∀ {s : Session} (thread : ThreadId) (request : Call), P s → P { s with
    runtime := { ((Managed.answer thread request).run.run s.runtime).2 with outbox := [] } }

namespace Sturdy

variable {P : Session → Prop} (hsturdy : Sturdy P)
include hsturdy

/-- What no call breaks, calls of any one kind do not break. -/
theorem tolerant : Tolerant (fun _ => True) P where
  beside h hruntime hrelay := hsturdy.beside h hruntime (hrelay ▸ .refl _)
  signalled _ _ h := hsturdy.beside h rfl (Relay.sheds_signal ..)
  answered thread request _ h := hsturdy.answered thread request h
  looksUp _ := trivial

/-- **What no call breaks, a script keeps.** -/
theorem keeps_play (script : Script α) : Keeps P (play thread script) :=
  hsturdy.tolerant.keeps_play (Script.Makes.any script)

end Sturdy

/-! ## Numbers only go up -/

/-- No call takes numbers of references back. -/
theorem sturdy_counted (n : Nat) : Sturdy (Counted n) where
  beside h hsame _ := h.of_refs (congrArg _ hsame)
  answered _ _ h := leaves_answer (durable_reached n) h

/-- So no script does. -/
theorem grows_play (script : Script α) : Grows (play thread script) :=
  fun n => (sturdy_counted n).keeps_play script

/-! ## Answers -/

/-- The runtime answers a call that the contract takes, and the ledger stays right. -/
theorem yields_answerDirect (h : Mirrors origin thread s.runtime ℓ) {request : Call}
    (htakes : (rules True).takes ℓ request) :
    Yields (answerDirect thread request)
      (fun reply s' => Honest origin thread ℓ request reply s'.runtime ∧ Steady s s') s := by
  obtain ⟨reply, rt, hrun, hhonest⟩ := answer_honest h htakes
  refine yields_bind (yields_get ?_)
  rw [hrun]
  refine yields_bind (yields_set (yields_pure ⟨?_, ?_⟩))
  -- completions that the answer led to are received before anyone looks at the runtime
  · have hcalm := calm_receiveAll { s with runtime := rt }
    intro hrange
    have hrange' : rt.refs.next ≤ 2 ^ 64 := by
      rw [hcalm.refs] at hrange
      exact hrange
    obtain ⟨ℓ', hanswers, hmirrors⟩ := hhonest hrange'
    exact ⟨ℓ', hanswers, hmirrors.calm hcalm⟩
  · obtain ⟨_, hcontext, hsubstitutes, hholding⟩ := receiveAll_spec { s with runtime := rt }
    exact ⟨hcontext, hsubstitutes, hholding⟩

/-- With nothing held back, a call that could be held back is answered like any other. -/
theorem yields_answerOrHold (h : Mirrors origin thread s.runtime ℓ) (hs : Untapped s)
    {request : Call} (htakes : (rules True).takes ℓ request) :
    Yields (answerOrHold thread request)
      (fun reply s' => Honest origin thread ℓ request reply s'.runtime ∧ Steady s s') s := by
  unfold answerOrHold
  split
  · refine yields_bind (yields_get ?_)
    rw [hs.holding]
    exact yields_answerDirect h htakes
  · exact yields_answerDirect h htakes

/-- The answer of a session is the answer of its runtime. -/
theorem yields_answer (h : Mirrors origin thread s.runtime ℓ) (hs : Untapped s) {request : Call}
    (htakes : (rules True).takes ℓ request) :
    Yields (answer thread request)
      (fun reply s' => Honest origin thread ℓ request reply s'.runtime ∧ Steady s s') s := by
  -- without substitutes the runtime answers itself, and the call is traced
  have hempty : Untapped { s with tap := { s.tap with substitutes := [] } } := ⟨rfl, hs.holding⟩
  have hreply := yields_answerOrHold (s := { s with tap := { s.tap with substitutes := [] } })
    h hempty htakes
  refine yields_bind (yields_bind (yields_get ?_))
  rw [hs.substitutes]
  refine yields_bind (yields_set (yields_bind (hreply.mono fun reply s' => ?_)))
  rintro ⟨hhonest, hcontext, hsubstitutes, hholding⟩
  refine yields_pure (yields_bind (yields_modify (yields_pure ⟨hhonest, hcontext, ?_, ?_⟩)))
  · show (s'.tap.trace _).substitutes = _
    rw [Tap.trace, hs.substitutes]
    split <;> exact hsubstitutes
  · show (s'.tap.trace _).holding = _
    rw [Tap.trace]
    split <;> exact hholding

/-! ## Scripts -/

/-- **What a script is judged to do, it does.** The ledger that the judgement ends with is right
about the runtime. -/
theorem within_play {script : Script α} {Q : α → Ledger → Prop}
    (hscript : script.wp (rules True) Q ℓ) (h : Mirrors origin thread s.runtime ℓ)
    (hs : Untapped s) :
    Within (play thread script) (fun value s' =>
      Steady s s' ∧ ∃ ℓ', Q value ℓ' ∧ Mirrors origin thread s'.runtime ℓ') s := by
  induction script generalizing s ℓ with
  | done value => exact within_pure ⟨Steady.refl s, ℓ, hscript, h⟩
  | call request next ih =>
    obtain ⟨htakes, hnext⟩ := hscript
    -- the contract takes the call, so the answer is honest and the script goes on from it
    refine within_bind (fun reply => grows_play (next reply)) fun hrange => ?_
    refine ((yields_answer h hs htakes).of_leaves hrange).mono fun reply s' => ?_
    rintro ⟨⟨hhonest, hsteady⟩, hrange'⟩
    obtain ⟨ℓ', hanswers, h'⟩ := hhonest hrange'
    refine (ih reply (hnext reply ℓ' hanswers) h' (hsteady.untapped hs)).mono ?_
    rintro value s'' ⟨hsteady', hended⟩
    exact ⟨hsteady.trans hsteady', hended⟩
  | report fault next ih =>
    refine within_bind (fun _ => grows_play next) (within_modify ?_)
    split
    -- with an error callback the report is noted, which no reference depends on
    · refine (ih (s := { s with reported := s.reported ++ [fault] }) hscript h
        ⟨hs.substitutes, hs.holding⟩).mono ?_
      rintro value s' ⟨⟨hcontext, hsubstitutes, hholding⟩, hended⟩
      exact ⟨⟨hcontext, hsubstitutes, hholding⟩, hended⟩
    · exact ih hscript h hs

end GridBridge.Session
