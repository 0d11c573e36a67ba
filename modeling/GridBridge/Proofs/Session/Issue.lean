import GridBridge.Proofs.Relay.Settling
import GridBridge.Proofs.Session.Signals

/-!
# Issues, whatever the managed side does

`issueThrough` issues a call in any world that keeps a relay: it begins the call, tries it through its
handle against any managed side, and takes the call back if that fails. A session issues so
(`issueFrom_eq`). While the handle's script is played, other threads and the managed side itself may go
on with all that they have, as long as they leave this issue alone (`Abides`). So an issue is a run of
the steps of `Issuance`, and what holds of every order of those holds of it. The managed side of a session
only signals (`Hears`), so it abides, and its issues need no condition (`issueFrom_settles`).
-/

namespace GridBridge.Relay

open Protocol Seam Bridge

variable {κ σ ε α β : Type}

/-! ## The code -/

/-- Issues a call: begins it, tries it, and takes it back if that fails. -/
def issueThrough {m : Type → Type} [Monad m] (world : Access κ m) (current : m (Option Context))
    (answer : (request : Call) → m request.Reply) (reported : ManagedFault → m Unit)
    (h : Handle) (op : Opcode) (input : Codec.Writer) (l : LoopId) (callback : κ) :
    m (Except BridgeError Unit) := do
  let begun := (← world.read).begin l callback
  world.write begun.2
  match ← (h.inOutOpAsync (← current) op input .relay begun.1).run.run answer reported with
  | .ok () => return .ok ()
  | .error e =>
    world.write ((← world.read).withdraw l begun.1)
    return .error e

/-- The issue of a session, with the context that it has for the thread and the managed side as the tap
shows it. -/
theorem issueFrom_eq (thread : Managed.ThreadId) (h : Handle) (op : Opcode) (input : Codec.Writer)
    (l : LoopId)
    (reaction : Session.Reaction) :
    Session.issueFrom thread h op input l reaction =
      issueThrough Session.relayAccess (do return Session.contextOn thread (← get))
        (Session.answer thread) Session.tellFault h op input l reaction := rfl

/-! ## What goes on in the meantime -/

variable {relayOf : σ → Relay κ} {may : CallId → Prop}

/-- Whatever the code does to the relay while an issue has called the managed side is steps of others,
about numbers that `may` be touched. -/
def Abides (relayOf : σ → Relay κ) (may : CallId → Prop) (x : ExceptT ε (StateM σ) α) : Prop :=
  ∀ s (f : Issuance κ) (c : Issuing κ), f.Reachable → c ∈ f.issuing → c.progress = .calling →
    f.relay = relayOf s →
    Leaves x (fun s' => ∃ ids f', Issuance.Steps f ids f' ∧ (∀ id ∈ ids, may id) ∧ c ∈ f'.issuing ∧
      f'.relay = relayOf s') s

theorem abides_pure (value : α) : Abides relayOf may (pure value : ExceptT ε (StateM σ) α) :=
  fun _ f _ _ hmem _ hsame => leaves_pure ⟨[], f, .refl f, nofun, hmem, hsame⟩

theorem abides_bind {x : ExceptT ε (StateM σ) α} {g : α → ExceptT ε (StateM σ) β}
    (hx : Abides relayOf may x) (hg : ∀ value, Abides relayOf may (g value)) :
    Abides relayOf may (x >>= g) := by
  intro s f c hreach hmem hprogress hsame
  have hfirst := hx s f c hreach hmem hprogress hsame
  unfold Leaves at hfirst ⊢
  rw [ExceptT.run_bind, StateT.run_bind]
  cases houtcome : x.run.run s with
  | mk outcome s' =>
    rw [houtcome] at hfirst
    cases outcome with
    | error e => exact hfirst
    | ok value =>
      obtain ⟨ids, f', hsteps, hallowed, hmem', hsame'⟩ := hfirst
      -- the call is still being made after the first part, so the second one starts from there
      obtain ⟨ids', f'', hsteps', hallowed', hmem'', hsame''⟩ :=
        hg value s' f' c (hreach.steps hsteps) hmem' hprogress hsame'
      refine ⟨ids ++ ids', f'', hsteps.trans hsteps', fun id hmem => ?_, hmem'', hsame''⟩
      exact (List.mem_append.mp hmem).elim (hallowed id) (hallowed' id)

/-- A script abides against a managed side that does. -/
theorem abides_run {answer : (request : Call) → ExceptT ε (StateM σ) request.Reply}
    {reported : ManagedFault → ExceptT ε (StateM σ) Unit}
    (hanswers : ∀ request, Abides relayOf may (answer request))
    (hreports : ∀ fault, Abides relayOf may (reported fault)) (script : Script α) :
    Abides relayOf may (script.run answer reported) := by
  induction script with
  | done value => exact abides_pure value
  | call request next ih => exact abides_bind (hanswers request) ih
  | report fault next ih => exact abides_bind (hreports fault) fun _ => ih

namespace Issuance

/-- A signal is steps beside the issues, about its own number. -/
theorem steps_signal (f : Issuance κ) (id : CallId) (payload : Completion) :
    ∃ ids f', Steps f ids f' ∧ (∀ id' ∈ ids, id' = id) ∧ f'.issuing = f.issuing ∧
      f'.relay = f.relay.signal id payload := by
  cases hknown : (f.relay.take id).1 with
  | none =>
    exact ⟨_, _, .single (.beside f none [id] _ (.ignore f.traffic id hknown) nofun), by simp, rfl,
      (take_of_unknown hknown).trans (signal_of_unknown hknown payload).symm⟩
  | some l =>
    let c : Courier := ⟨id, l, payload, .taken⟩
    refine ⟨_, _, .head (.beside f none [id] _ (.take f.traffic id payload l hknown) nofun)
      (.head (.beside _ none [id] _ (.fill _ c (List.mem_cons_self ..) rfl) nofun)
        (.head (.beside _ none [id] _
            (.push _ { c with stage := .filled } (List.mem_cons_self ..) rfl) nofun)
          (.single (.beside _ none [id] _
            (.unpark _ { c with stage := .pushed } (List.mem_cons_self ..) rfl) nofun)))),
      by simp, rfl, (signal_of_known hknown payload).symm⟩

/-- Signals in a row are steps beside the issues, about their numbers. Induction on the signals. -/
theorem steps_signalAll (f : Issuance κ) (signals : List (CallId × Completion)) :
    ∃ ids f', Steps f ids f' ∧ (∀ id ∈ ids, id ∈ signals.map (·.1)) ∧ f'.issuing = f.issuing ∧
      f'.relay = f.relay.signalAll signals := by
  induction signals generalizing f with
  | nil => exact ⟨[], f, .refl f, nofun, rfl, rfl⟩
  | cons signal rest ih =>
    obtain ⟨ids, f', hsteps, habout, hissuing, hrelay⟩ := f.steps_signal signal.1 signal.2
    obtain ⟨ids', f'', hsteps', habout', hissuing', hrelay'⟩ := ih f'
    refine ⟨ids ++ ids', f'', hsteps.trans hsteps', fun id hmem => ?_, hissuing'.trans hissuing, ?_⟩
    · rcases List.mem_append.mp hmem with hfirst | hlater
      · exact habout id hfirst ▸ List.mem_cons_self ..
      · exact List.mem_cons_of_mem _ (habout' id hlater)
    · rw [hrelay', hrelay]
      rfl

end Issuance

/-- Code that only signals abides, whatever it signals, if those numbers may be touched. -/
theorem abides_of_signals {x : ExceptT ε (StateM σ) α}
    (h : ∀ s, Leaves x (fun s' => ∃ signals, (∀ id ∈ signals.map (·.1), may id) ∧
      relayOf s' = (relayOf s).signalAll signals) s) : Abides relayOf may x := by
  intro s f c _ hmem _ hsame
  refine leaves_mono (h s) ?_
  rintro s' ⟨signals, hmay, hrelay⟩
  obtain ⟨ids, f', hsteps, habout, hissuing, hrelay'⟩ := f.steps_signalAll signals
  refine ⟨ids, f', hsteps, fun id hid => hmay id (habout id hid), ?_, ?_⟩
  · rw [hissuing]
    exact hmem
  · rw [hrelay', hsame, hrelay]

/-! ## How an issue ends -/

/-- How an issue went: the call was begun, and then others had their steps until it returned. -/
structure Went (f : Issuance κ) (l : LoopId) (callback : κ) (outcome : Except BridgeError Unit)
    (started : Issuance κ) (touched : List CallId) (returned : Issuance κ) : Prop where
  begun : f.Steps [f.relay.nextCall, f.relay.nextCall] started
  count : started.traffic.begun = f.traffic.begun + 1
  /-- Before the managed side is called, the call is in the registry and waits. -/
  waits : f.traffic.begun + 1 < 2 ^ 64 →
    (f.relay.nextCall, l) ∈ started.relay.inFlight ∧
    started.relay.WaitsOn l ⟨f.relay.nextCall, callback, none⟩ ∧
    f.relay.nextCall ∉ started.traffic.taken.map (·.1)
  steps : started.Steps touched returned
  accepted : outcome = .ok () → ⟨f.relay.nextCall, l, callback⟩ ∈ returned.accepted
  refused : ∀ e, outcome = .error e → ⟨f.relay.nextCall, l, callback⟩ ∈ returned.refused

namespace Went

variable {f started returned later : Issuance κ} {l : LoopId} {callback : κ}
  {outcome : Except BridgeError Unit} {touched touched' : List CallId}

/-- Fewer calls were begun before the issue than when it returned. -/
theorem bound_started (h : Went f l callback outcome started touched returned)
    (hbound : returned.traffic.begun < 2 ^ 64) : f.traffic.begun + 1 < 2 ^ 64 :=
  h.count ▸ Nat.lt_of_le_of_lt h.steps.begun_le hbound

/-- Calls that neither the issue nor the others were about are as before. -/
theorem undisturbed (h : Went f l callback outcome started touched returned) (hreach : f.Reachable)
    (hbound : returned.traffic.begun < 2 ^ 64) {id : CallId} (hother : id ≠ f.relay.nextCall)
    (hfree : id ∉ touched) : Undisturbed id f.relay returned.relay := by
  refine (h.begun.trans h.steps).undisturbed hreach hbound ?_
  rw [List.mem_append, not_or]
  exact ⟨by simpa using hother, hfree⟩

/-- After an error the call is gone for good. -/
theorem gone (h : Went f l callback outcome started touched returned) (hreach : f.Reachable)
    (hmore : returned.Steps touched' later) (hbound : later.traffic.begun < 2 ^ 64) {e : BridgeError}
    (hfailed : outcome = .error e) : later.traffic.Gone f.relay.nextCall := by
  have hreach' := hreach.steps ((h.begun.trans h.steps).trans hmore)
  exact Issuance.gone_of_refused hreach' hbound (hmore.refused (h.refused e hfailed))

/-- An issue that returned is delivered. -/
theorem delivers (h : Went f l callback outcome started touched returned) (hreach : f.Reachable)
    (hmore : returned.Steps touched' later) (hbound : later.traffic.begun < 2 ^ 64)
    (hreturns : outcome = .ok ()) : later.traffic.Delivers ⟨f.relay.nextCall, l, callback⟩ := by
  have hreach' := hreach.steps ((h.begun.trans h.steps).trans hmore)
  exact Issuance.delivers_of_accepted hreach' hbound (hmore.accepted (h.accepted hreturns))

end Went

/-- An issue is a run of its own steps and of those of others in between. The call is in the registry
and waits before the managed side is called. -/
theorem issueThrough_steps {world : Access κ (ExceptT ε (StateM σ))}
    (hfaithful : Faithful world relayOf)
    {current : ExceptT ε (StateM σ) (Option Context)} (hlooks : Abides relayOf may current)
    {answer : (request : Call) → ExceptT ε (StateM σ) request.Reply}
    (hanswers : ∀ request, Abides relayOf may (answer request))
    {reported : ManagedFault → ExceptT ε (StateM σ) Unit}
    (hreports : ∀ fault, Abides relayOf may (reported fault))
    (h : Handle) (op : Opcode) (input : Codec.Writer) {l : LoopId} {callback : κ}
    {f : Issuance κ} (hreach : f.Reachable) (halive : f.relay.Alive l) {s s' : σ}
    (hsame : f.relay = relayOf s) {outcome : Except BridgeError Unit}
    (hran : (issueThrough world current answer reported h op input l callback).run.run s =
      (.ok outcome, s')) :
    ∃ started returned touched, Went f l callback outcome started touched returned ∧
      (∀ id ∈ touched, id = f.relay.nextCall ∨ may id) ∧ returned.relay = relayOf s' := by
  let id := f.relay.nextCall
  let c : Issuing κ := ⟨⟨id, l, callback⟩, .calling⟩
  obtain ⟨started, hbegun, hrelay₁, hcount, hmem₁, hwaits⟩ :=
    Issuance.steps_begin hreach callback halive
  refine ⟨started, ?_⟩
  obtain ⟨s₁, hwrote, hsame₁⟩ := hfaithful.write ((relayOf s).begin l callback).2 s
  unfold issueThrough at hran
  rw [run_bind_of_ok (hfaithful.read s), run_bind_of_ok hwrote] at hran
  rw [← hsame] at hran hsame₁
  -- the managed side is called
  have habides := abides_bind hlooks fun ctx =>
    abides_run hanswers hreports
      (h.inOutOpAsync ctx op input .relay (f.relay.begin l callback).1).run
  obtain ⟨ctx, s₂, hlooked, hran⟩ := run_bind_eq_ok hran
  obtain ⟨result, s₃, hplayed, hran⟩ := run_bind_eq_ok hran
  have hduring := habides s₁ started c (hreach.steps hbegun) hmem₁ rfl (hrelay₁.trans hsame₁.symm)
  unfold Leaves at hduring
  rw [run_bind_of_ok hlooked, hplayed] at hduring
  obtain ⟨touched, called, hsteps, hallowed, hmem, hrelay₃⟩ := hduring
  have hown (own : List CallId) (hmine : ∀ id' ∈ own, id' = id) :
      ∀ id' ∈ touched ++ own, id' = id ∨ may id' := fun id' hmem =>
    (List.mem_append.mp hmem).elim (fun hother => .inr (hallowed id' hother)) fun hmem => .inl
      (hmine id' hmem)
  -- and the issue ends
  cases result with
  | ok _ =>
    cases hran
    have haccepted := Issuance.Step.accept called c hmem rfl
    exact ⟨_, touched ++ [id], ⟨hbegun, hcount, hwaits, hsteps.trans (.single haccepted),
      fun _ => List.mem_cons_self .., nofun⟩, hown [id] (by simp), hrelay₃⟩
  | error e =>
    obtain ⟨s₄, hwrote, hsame₄⟩ :=
      hfaithful.write ((relayOf s₃).withdraw l (f.relay.begin l callback).1) s₃
    rw [run_bind_of_ok (hfaithful.read s₃), run_bind_of_ok hwrote] at hran
    cases hran
    obtain ⟨forgotten, hforgot, hmem₄, hrelay₄⟩ : ∃ forgotten, Issuance.Step called [id] forgotten ∧
        { c with progress := .forgotten (called.relay.take id).1.isSome } ∈ forgotten.issuing ∧
        forgotten.relay = (called.relay.take id).2 :=
      ⟨_, .forget called c hmem rfl, List.mem_cons_self .., rfl⟩
    have hwithdrew := Issuance.Step.withdraw forgotten _ _ hmem₄ rfl
    refine ⟨_, touched ++ ([id] ++ [id]), ⟨hbegun, hcount, hwaits,
      hsteps.trans ((Issuance.Steps.single hforgot).trans (.single hwithdrew)), nofun,
      fun _ _ => List.mem_cons_self ..⟩, hown _ (by simp), ?_⟩
    show forgotten.relay.modifyLoop l (·.withdraw id) = _
    rw [hrelay₄, withdraw_take, hrelay₃, hsame₄]
    rfl

/-- **An issue withdraws completely or delivers.** An issue on a loop that is alive, through any handle,
live or torn down, with any opcode and request, against any managed side and with any other threads,
which signal what they like as long as it is in `may`:

* before the managed side is called, the call is in the registry and waits with an empty slot, and no
  early signal has taken it;
* when the issue is over, the relay has the same as before of every other call that nobody signalled;
* if the issue ended in an error, then from then on, whatever happens, the call is not in the registry
  and not waited for and its callback has not run, even if its number is taken off a queue;
* if it returned, then from then on a completion that came for it, before it returned or later, is
  delivered: once no signal for it is on its way and its number is in no queue, its callback has run on
  the loop with the first payload that came.

The issue of a session is such an issue. The bound is the width of a call number. -/
theorem issue_withdraws_or_delivers {world : Access κ (ExceptT ε (StateM σ))}
    (hfaithful : Faithful world relayOf)
    {current : ExceptT ε (StateM σ) (Option Context)} (hlooks : Abides relayOf may current)
    {answer : (request : Call) → ExceptT ε (StateM σ) request.Reply}
    (hanswers : ∀ request, Abides relayOf may (answer request))
    {reported : ManagedFault → ExceptT ε (StateM σ) Unit}
    (hreports : ∀ fault, Abides relayOf may (reported fault))
    (h : Handle) (op : Opcode) (input : Codec.Writer) {l : LoopId} {callback : κ}
    {f : Issuance κ} (hreach : f.Reachable) (halive : f.relay.Alive l) {s s' : σ}
    (hsame : f.relay = relayOf s) {outcome : Except BridgeError Unit}
    (hran : (issueThrough world current answer reported h op input l callback).run.run s =
      (.ok outcome, s')) :
    ∃ started returned touched, f.Steps [f.relay.nextCall, f.relay.nextCall] started ∧
      started.Steps touched returned ∧ returned.relay = relayOf s' ∧
      (returned.traffic.begun < 2 ^ 64 →
        (f.relay.nextCall, l) ∈ started.relay.inFlight ∧
        started.relay.WaitsOn l ⟨f.relay.nextCall, callback, none⟩ ∧
        f.relay.nextCall ∉ started.traffic.taken.map (·.1) ∧
        ∀ id, id ≠ f.relay.nextCall → ¬ may id → Undisturbed id f.relay returned.relay) ∧
      (∀ later touched', returned.Steps touched' later → later.traffic.begun < 2 ^ 64 →
        (∀ e, outcome = .error e → later.traffic.Gone f.relay.nextCall) ∧
        (outcome = .ok () → later.traffic.Delivers ⟨f.relay.nextCall, l, callback⟩ ∧
          ∀ payload, returned.traffic.firstTaken? f.relay.nextCall = some payload →
            later.traffic.firstTaken? f.relay.nextCall = some payload)) ∧
      ∀ thread h op input l reaction, Session.issueFrom thread h op input l reaction =
        issueThrough Session.relayAccess (do return Session.contextOn thread (← get))
          (Session.answer thread) Session.tellFault h op input l reaction := by
  obtain ⟨started, returned, touched, hwent, hallowed, hrelay⟩ :=
    issueThrough_steps hfaithful hlooks hanswers hreports h op input hreach halive hsame hran
  refine ⟨started, returned, touched, hwent.begun, hwent.steps, hrelay, fun hbound => ?_,
    fun later touched' hmore hbound => ⟨fun e hfailed => hwent.gone hreach hmore hbound hfailed,
      fun hreturns => ⟨hwent.delivers hreach hmore hbound hreturns, fun payload hfirst =>
        hmore.firstTaken? hfirst⟩⟩,
    issueFrom_eq⟩
  -- the numbers last to the end, so they lasted to the start of the managed part
  obtain ⟨hregistered, hwaiting, huntaken⟩ := hwent.waits (hwent.bound_started hbound)
  refine ⟨hregistered, hwaiting, huntaken, fun id hother hfree => hwent.undisturbed hreach hbound
    hother ?_⟩
  exact fun hmem => (hallowed id hmem).elim hother hfree

/-! ## A managed side that completes a call and then raises -/

/-- A loop that waits for call `1`, which was accepted. -/
def oneAccepted : Issuance Unit where
  traffic := {
    relay := { nextCall := 2, nextLoop := 1, inFlight := [(1, 0)],
               loops := [(0, { waiting := [⟨1, (), none⟩] })] }
    begun := 1
    issued := [⟨1, 0, ()⟩] }
  accepted := [⟨1, 0, ()⟩]

theorem reachable_oneAccepted : oneAccepted.Reachable := by
  have hopened := Issuance.Reachable.fresh.step
    (.beside {} none [] _ (.openLoop ({} : Traffic Unit)) nofun)
  have hregistered := hopened.step (.register _ 0 () rfl)
  have hinserted := hregistered.step (.insert _ ⟨⟨1, 0, ()⟩, .registered⟩ (List.mem_cons_self ..) rfl)
  exact hinserted.step (.accept _ ⟨⟨1, 0, ()⟩, .calling⟩ (List.mem_cons_self ..) rfl)

/-- A world that is a relay and nothing else. -/
def bareAccess : Access Unit (ExceptT Unit (StateM (Relay Unit))) where
  read := get
  write := set

/-- Signals call `2` twice when an operation is issued, and has an exception pending afterwards. -/
def completeThenRaise : (request : Call) → ExceptT Unit (StateM (Relay Unit)) request.Reply
  | .attach => return .ok ()
  | .callVoid .. => modify fun r => (r.signal 2 ⟨resultOk, 7⟩).signal 2 ⟨resultOk, 8⟩
  | request => return ({ call := request.name, number := 1 } : Substitute).reply request

theorem completeThenRaise_abides (request : Call) :
    Abides (fun r => r) (· = 2) (completeThenRaise request) := by
  unfold completeThenRaise
  split
  · exact abides_pure _
  · exact abides_of_signals fun r => leaves_modify
      ⟨[(2, ⟨resultOk, 7⟩), (2, ⟨resultOk, 8⟩)], by simp, rfl⟩
  · exact abides_pure _

/-- Forgets a fault. -/
def tellNobody (_ : ManagedFault) : ExceptT Unit (StateM (Relay Unit)) Unit :=
  pure ()

/-- A context all of whose references and methods are alike. -/
def bareContext : Context where
  descriptors := ⟨⟨0⟩, ⟨0⟩, ⟨0⟩, ⟨0⟩, ⟨0⟩, ⟨0⟩, ⟨0⟩, ⟨0⟩, ⟨0⟩, ⟨0⟩, ⟨0⟩, ⟨0⟩, ⟨0⟩, ⟨0⟩, ⟨0⟩, ⟨0⟩, ⟨0⟩,
    ⟨0⟩, ⟨0⟩⟩

/-- The failed call is in the queue of its loop, and it is gone for good. Call `1` stays as it is. -/
theorem completeThenRaise_withdrawn :
    ∃ returned touched, Issuance.Steps oneAccepted ([2, 2] ++ touched) returned ∧
      returned.relay.ReadyOn 0 2 ∧
      (returned.traffic.begun < 2 ^ 64 → Undisturbed 1 oneAccepted.relay returned.relay) ∧
      ∀ later touched', returned.Steps touched' later → later.traffic.begun < 2 ^ 64 →
        later.traffic.Gone 2 := by
  have hfaithful : Faithful bareAccess (fun r => r) := ⟨fun _ => rfl, fun relay _ => ⟨relay, rfl, rfl⟩⟩
  have halive : oneAccepted.relay.Alive 0 := rfl
  have hreports (fault : ManagedFault) : Abides (fun r => r) (· = 2) (tellNobody fault) :=
    abides_pure ()
  have hran : (issueThrough bareAccess (pure (some bareContext)) completeThenRaise tellNobody
      ⟨⟨0⟩, .cache⟩ .put (.ofCapacity 1 (by decide)) 0 ()).run.run oneAccepted.relay = (.ok _, _) := rfl
  obtain ⟨started, returned, touched, hbegun, hsteps, hrelay, hothers, hends, -⟩ :=
    issue_withdraws_or_delivers hfaithful (abides_pure (some bareContext)) completeThenRaise_abides
      hreports ⟨⟨0⟩, .cache⟩ .put (.ofCapacity 1 (by decide)) reachable_oneAccepted halive rfl hran
  refine ⟨returned, touched, hbegun.trans hsteps, ?_, fun hbound => ?_,
    fun later touched' hmore hbound => ?_⟩
  · rw [hrelay]
    exact ⟨_, rfl, List.mem_cons_self ..⟩
  · exact (hothers hbound).2.2.2 1 (by decide) (by decide)
  · exact (hends later touched' hmore hbound).1 _ rfl

end GridBridge.Relay

namespace GridBridge.Session

open Protocol Seam Bridge Relay

/-! ## The issues of a session -/

/-- What a step does to the relay while an issue is under way is signals, so it abides. -/
theorem abides_of_hears {α : Type} {x : Step α} (h : Hears x) : Abides (·.relay) (fun _ => True) x := by
  refine abides_of_signals fun s => leaves_mono (h.leaves s) ?_
  rintro s' ⟨signals, hsame⟩
  exact ⟨signals, fun _ _ => trivial, hsame⟩

/-- **An issue of a session withdraws completely or delivers**, on any thread, through any handle and
whatever the tap does to its calls. The numbers in `touched` are its own and those that were signalled
meanwhile, and every other call is as before. -/
theorem issueFrom_settles {f : Issuance Reaction} (hreach : f.Reachable) {s s' : Session}
    (hsame : f.relay = s.relay) {thread : Managed.ThreadId} {h : Handle} {op : Opcode}
    {input : Codec.Writer} {l : LoopId} {reaction : Reaction} (halive : f.relay.Alive l)
    {outcome : Except BridgeError Unit}
    (hran : (issueFrom thread h op input l reaction).run.run s = (.ok outcome, s')) :
    ∃ returned touched, f.Steps ([f.relay.nextCall, f.relay.nextCall] ++ touched) returned ∧
      returned.relay = s'.relay ∧
      (returned.traffic.begun < 2 ^ 64 → ∀ id, id ≠ f.relay.nextCall → id ∉ touched →
        Undisturbed id s.relay s'.relay) ∧
      ∀ later touched', returned.Steps touched' later → later.traffic.begun < 2 ^ 64 →
        (outcome = .ok () → later.traffic.Delivers ⟨f.relay.nextCall, l, reaction⟩) ∧
        ∀ e, outcome = .error e → later.traffic.Gone f.relay.nextCall := by
  -- looking for the context writes nothing
  have hlooks : Abides (·.relay) (fun _ => True)
      (do return contextOn thread (← get) : Step (Option Context)) :=
    abides_of_hears (hears_get fun s => hears_pure _)
  rw [issueFrom_eq] at hran
  obtain ⟨started, returned, touched, hwent, -, hrelay⟩ :=
    issueThrough_steps faithful_relayAccess hlooks
      (fun request => abides_of_hears (hears_answer request))
      (fun fault => abides_of_hears (hears_tellFault fault)) h op input hreach halive hsame hran
  refine ⟨returned, touched, hwent.begun.trans hwent.steps, hrelay, fun hbound id hother hfree => ?_,
    fun later touched' hmore hbound => ⟨hwent.delivers hreach hmore hbound,
      fun e hfailed => hwent.gone hreach hmore hbound hfailed⟩⟩
  rw [← hsame, ← hrelay]
  exact hwent.undisturbed hreach hbound hother hfree

end GridBridge.Session
