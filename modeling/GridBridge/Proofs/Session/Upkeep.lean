import GridBridge.Proofs.Relay.Onward
import GridBridge.Proofs.Session.Invisible

/-!
# What acts keep up for completions

A completion comes in through the entry of a runtime that is up, from a task that was queued, for a call
in the registry. So three things matter of an act that is not the turn of a worker: what it does to the
phase and the completion entry (**`Upkeep`**, `Balanced.partly_upkeep`), what stays of the queue
(`Goes.keeps_queue`), and which calls it puts in the registry (`Goes.proceeds`): a call that was issued
has its task (`Balanced.partly_issueFrom_queues`).
-/

namespace GridBridge.Session

open Protocol Seam Bridge Managed Relay

variable {α : Type} {thread : ThreadId} {s s' : Session} {kept : Multiset Ref} {act : Act}
  {outcome : Outcome}

/-! ## Steps that end in a value -/

theorem partly_of_leaves {x : Step α} {P : Session → Prop} (h : Leaves x P s) :
    Partly x (fun _ => P) s :=
  fun _ _ hran _ => h.of_run hran

theorem Within.partly {x : Step α} {Q : α → Session → Prop} (h : Within x Q s) : Partly x Q s := by
  intro value s' hran hinRange
  have hleaves : Leaves x InRange s := by
    unfold Leaves
    rw [hran]
    exact hinRange
  obtain ⟨value', s'', hran', hQ⟩ := h hleaves
  rw [hran] at hran'
  cases hran'
  exact hQ

theorem partly_quietly {x : Step (Except BridgeError α)} {P : Session → Prop}
    (h : Partly x (fun _ => P) s) : Partly (Act.quietly x) (fun _ => P) s :=
  partly_bind (fun _ => grows_pure) (h.mono fun _ _ hleft => partly_pure hleft)

/-! ## Phase and entry -/

/-- What an act may do to the phase and the completion entry: leave them alone, begin the life of the
runtime or end it. A runtime that is up after its beginning has its entry. -/
inductive Upkeep (rt rt' : Runtime) : Prop where
  | same (hphase : rt'.phase = rt.phase) (hentry : rt'.entry = rt.entry)
  | began (hidle : rt.phase = .idle) (hbound : rt'.phase = .running → rt'.entry = some .completion)
  | ended (hunbound : Unbound rt')

theorem Upkeep.refl (rt : Runtime) : Upkeep rt rt := .same rfl rfl

/-- What depends on phase, entry and queue, and outlasts a task that is queued, everyday calls do not
break. -/
theorem tolerant_of_queue {Q : Managed.Phase → Option NativeEntry → List Task → Prop}
    (hqueued : ∀ {entry tasks} (task : Task), Q .running entry tasks →
      Q .running entry (tasks ++ [task])) :
    Tolerant (·.everyday = true) fun s => Q s.runtime.phase s.runtime.entry s.runtime.tasks where
  beside h hruntime _ := by rw [hruntime]; exact h
  signalled _ _ h := h
  answered _ _ heveryday h := leaves_answer_everyday (enduring_of_queue hqueued) heveryday h
  looksUp _ := rfl

/-- A start that succeeds binds the entry. -/
theorem Balanced.partly_startOn_binds (h : Balanced s kept) (hidle : s.runtime.phase = .idle)
    {args : LaunchArgs} {hasErrorCallback : Bool} :
    Partly (startOn thread args hasErrorCallback) (fun outcome s' =>
      outcome = .ok () → s'.runtime.entry = some .completion) s := by
  unfold startOn
  refine partly_bind grows_install ((partly_perform (Context.wp_start_binds args) h.untapped).mono ?_)
  rintro (e | descriptors) s' ⟨hbound, hbeside⟩
  · exact partly_pure nofun
  · -- there is no old context to be dropped
    have hnone : s'.context = none := hbeside.steady.context.trans (h.of_idle hidle).1
    refine partly_bind (fun _ => grows_bind (grows_modify fun _ => rfl) fun _ => grows_pure)
      ((within_dropContextOn_none hnone).partly.mono ?_)
    rintro _ _ rfl
    exact partly_bind (fun _ => grows_pure) (partly_modify (partly_pure fun _ => hbound))

theorem Balanced.partly_upkeep_startOn (h : Balanced s kept) (hquiet : s.runtime.outbox = [])
    {args : LaunchArgs} {hasErrorCallback : Bool} :
    Partly (startOn thread args hasErrorCallback) (fun _ s' => Upkeep s.runtime s'.runtime) s := by
  by_cases hidle : s.runtime.phase = .idle
  · intro outcome s' hran hinRange
    have hbinds := h.partly_startOn_binds hidle outcome s' hran hinRange
    have hended := h.within_startOn.partly outcome s' hran hinRange
    refine .began hidle fun hup => ?_
    cases outcome with
    | ok _ => exact hbinds rfl
    | error e =>
      -- what a start that failed leaves behind is not up
      have hnone : s'.context = none := hended.context.trans (h.of_idle hidle).1
      rcases hended.balanced.down hnone with hdown | ⟨hdown, -⟩ <;> rw [hup] at hdown <;> cases hdown
  · have hrefused : Operation.wp (silent thread) (Context.start args) (fun _ _ => False)
        (fun _ rt' => rt' = s.runtime) s.runtime :=
      Context.wp_start_refused hidle hquiet fun _ _ => rfl
    refine partly_bind grows_install ((partly_silent hrefused h.untapped).mono ?_)
    rintro (e | _) s' ⟨hended, -⟩
    · have hsame : s'.runtime = s.runtime := hended
      exact partly_pure (hsame ▸ .refl _)
    · exact hended.elim

theorem Balanced.partly_upkeep_dropContextOn (h : Balanced s kept) :
    Partly (dropContextOn thread) (fun _ s' => Upkeep s.runtime s'.runtime) s := by
  cases hcontext : s.context with
  | none =>
    refine (within_dropContextOn_none hcontext).partly.mono ?_
    rintro _ _ rfl
    exact .refl _
  | some ctx =>
    refine partly_get ?_
    rw [hcontext]
    refine partly_bind (fun _ => grows_bind (grows_play _) fun _ => grows_pure) (partly_modify ?_)
    refine partly_bind (fun _ => grows_pure) ?_
    refine (partly_play (s := { s with context := none })
      (Context.wp_tearDown_unbinds (h.up ctx hcontext).phase)
      ⟨h.untapped.substitutes, h.untapped.holding⟩).mono ?_
    exact fun _ s' ⟨hunbound, _⟩ => partly_pure (.ended hunbound)

/-- **What an act does to the phase and the entry**, if it is not the turn of a worker. -/
theorem Balanced.partly_upkeep (h : Balanced s kept) (hquiet : s.runtime.outbox = [])
    (huser : act ≠ .work) :
    Partly act.run (fun _ s' => Upkeep s.runtime s'.runtime) s := by
  have htolerant := tolerant_of_queue
    (Q := fun phase entry _ => phase = s.runtime.phase ∧ entry = s.runtime.entry) fun _ hsame => hsame
  have hkept {x : Step Outcome} (hleft : Leaves x (fun s' => s'.runtime.phase = s.runtime.phase ∧
      s'.runtime.entry = s.runtime.entry) s) : Partly x (fun _ s' => Upkeep s.runtime s'.runtime) s :=
    (partly_of_leaves hleft).mono fun _ _ hsame => .same hsame.1 hsame.2
  have hdaily (hplays : act.plays = true) (heveryday : act.vital = false) :
      Partly act.run (fun _ s' => Upkeep s.runtime s'.runtime) s := by
    refine hkept (htolerant.keeps_run (fun _ hmade => hmade) hplays ?_ s ⟨rfl, rfl⟩)
    rw [heveryday]
    exact nofun
  -- only a start and the end of a context touch phase and entry
  cases act with
  | start => exact partly_quietly (h.partly_upkeep_startOn hquiet)
  | dropContext =>
    exact partly_bind (fun _ => grows_pure)
      (h.partly_upkeep_dropContextOn.mono fun _ _ hupkeep => partly_pure hupkeep)
  | switch change =>
    refine hkept (leaves_bind (leaves_modify ?_) fun _ _ hsame => leaves_pure hsame)
    cases change <;> exact ⟨rfl, rfl⟩
  | issue thread handle op input loop reaction =>
    refine partly_quietly fun outcome s' hran _ => ?_
    obtain ⟨called, hsame, rfl⟩ := htolerant.ends_issueFrom
      (fun _ => (keeps_inOutOpAsync ..).everyday) ⟨rfl, rfl⟩ outcome s' hran
    cases outcome <;> exact .same hsame.1 hsame.2
  | openLoop | dropLoop =>
    exact hkept (leaves_bind (leaves_modify ⟨rfl, rfl⟩) fun _ _ hsame => leaves_pure hsame)
  | deliver loop =>
    refine hkept (leaves_bind (Yields.leaves (yields_deliverNext.mono ?_)) fun _ _ hsame =>
      leaves_pure hsame)
    rintro _ _ (rfl | ⟨id, claimed, after, -, rfl⟩) <;> exact ⟨rfl, rfl⟩
  | work => exact absurd rfl huser
  | _ => exact hdaily rfl rfl

/-! ## The queue -/

/-- What depends on phase and queue, and outlasts the launch and the end of the runtime and a task that
is queued, users do not break. -/
theorem steadfast_of_queue {Q : Managed.Phase → List Task → Prop}
    (hqueued : ∀ {tasks} (task : Task), Q .running tasks → Q .running (tasks ++ [task]))
    (hlaunched : ∀ {tasks}, Q .idle tasks → Q .running tasks)
    (hdestroyed : ∀ {phase tasks}, Q phase tasks → Q .destroyed []) :
    Steadfast fun s => Q s.runtime.phase s.runtime.tasks where
  beside h hruntime _ := by rw [hruntime]; exact h
  answered _ _ h := leaves_answer (durable_of_queue hqueued hlaunched hdestroyed) h
  switched change h := by cases change <;> exact h

theorem Act.runtime_begun (act : Act) (s : Session) : (act.begun s).runtime = s.runtime := by
  cases act <;> rfl

namespace World.Goes

variable {w w' : World} (hgoes : w.Goes act outcome w') (huser : act ≠ .work)
include hgoes huser

theorem keeps_queue {Q : Managed.Phase → List Task → Prop}
    (hqueued : ∀ {tasks} (task : Task), Q .running tasks → Q .running (tasks ++ [task]))
    (hlaunched : ∀ {tasks}, Q .idle tasks → Q .running tasks)
    (hdestroyed : ∀ {phase tasks}, Q phase tasks → Q .destroyed [])
    (h : Q w.session.runtime.phase w.session.runtime.tasks) :
    Q w'.session.runtime.phase w'.session.runtime.tasks := by
  refine ((steadfast_of_queue hqueued hlaunched hdestroyed).leaves_run huser ?_).of_run hgoes.ran
  rw [act.runtime_begun]
  exact h

/-- A runtime that was destroyed stays so. -/
theorem down (hdown : w.session.runtime.phase = .destroyed) : w'.session.runtime.phase = .destroyed :=
  hgoes.keeps_queue huser (Q := fun phase _ => phase = .destroyed) (fun _ hsame => hsame) nofun
    (fun _ => rfl) hdown

/-- A task stays in the queue until the runtime is destroyed. -/
theorem queued {task : Task} (hup : w.session.runtime.phase = .running)
    (hmem : task ∈ w.session.runtime.tasks) :
    w'.session.runtime.phase = .destroyed ∨
      w'.session.runtime.phase = .running ∧ task ∈ w'.session.runtime.tasks :=
  hgoes.keeps_queue huser (Q := fun phase tasks => phase = .destroyed ∨ phase = .running ∧ task ∈ tasks)
    (fun _ => Or.imp_right (And.imp_right (List.mem_append_left _)))
    (fun hnone => absurd hnone (by simp)) (fun _ => .inl rfl) (.inr ⟨hup, hmem⟩)

theorem up (hup : w.session.runtime.phase = .running) :
    w'.session.runtime.phase = .destroyed ∨ w'.session.runtime.phase = .running :=
  hgoes.keeps_queue huser (Q := fun phase _ => phase = .destroyed ∨ phase = .running)
    (fun _ hsame => hsame) (fun _ => .inr rfl) (fun _ => .inl rfl) (.inr hup)

/-- Only a runtime that is up has tasks in its queue. -/
theorem halted (hhalted : w.session.runtime.phase ≠ .running → w.session.runtime.tasks = []) :
    w'.session.runtime.phase ≠ .running → w'.session.runtime.tasks = [] :=
  hgoes.keeps_queue huser (Q := fun phase tasks => phase ≠ .running → tasks = [])
    (fun _ _ hdown => absurd rfl hdown) (fun _ hdown => absurd rfl hdown) (fun _ _ => rfl) hhalted

end World.Goes

/-- **A call that was issued has its task.** -/
theorem Balanced.partly_issueFrom_queues (h : Balanced s kept) {handle : Handle} {op : Opcode}
    {input : Codec.Writer} {l : LoopId} {reaction : Reaction} :
    Partly (issueFrom thread handle op input l reaction) (fun outcome s' => outcome = .ok () →
      ∃ task ∈ s'.runtime.tasks, task.callback = .callback .relay ∧
        task.data = .ofNat64 s.relay.nextCall) s := by
  unfold issueFrom
  refine partly_bind (fun id => grows_get fun s => grows_bind (grows_play _) grows_withdraw) ?_
  refine partly_modifyGet (partly_get ?_)
  have hmethods (ctx : Context) (hfound : contextOn thread s = some ctx) : Found ctx.descriptors := by
    obtain ⟨ctx', hctx', hsame⟩ := descriptors_of_contextOn hfound
    obtain ⟨classes, hbound, _⟩ := (h.up ctx' hctx').bound
    exact hsame ▸ hbound.methods trivial
  -- a call that returns has put its task in the queue, and nothing takes it out before the end
  have hop : Operation.wp (loopback thread)
      (handle.inOutOpAsync (contextOn thread s) op input .relay s.relay.nextCall)
      (fun _ rt => ∃ task ∈ rt.tasks, task.callback = .callback .relay ∧
        task.data = .ofNat64 s.relay.nextCall)
      (fun _ _ => True) s.runtime := Handle.wp_inOutOpAsync_queues hmethods
  refine partly_bind grows_withdraw ((partly_perform
    (s := { s with relay := (s.relay.begin l reaction).2 }) hop
    ⟨h.untapped.substitutes, h.untapped.holding⟩).mono ?_)
  rintro (e | _) s' ⟨hqueued, -⟩
  · exact partly_bind (fun _ => grows_pure) (partly_modify (partly_pure nofun))
  · exact partly_pure fun _ => hqueued

/-! ## The registry -/

/-- The loop that a call is issued on. -/
def Act.loop? : Act → Option LoopId
  | .issue _ _ _ _ loop _ => some loop
  | _ => none

/-- Signals and changes beside the relay are steps of traffic that leave signals on their way alone. -/
theorem tolerant_onward (t : Traffic Reaction) :
    Tolerant (fun _ => True) fun s => ∃ t', Onward t t' ∧ t'.relay = s.relay where
  beside h _ hrelay := hrelay ▸ h
  signalled id completion h := by
    obtain ⟨t', honward, hrelay⟩ := h
    obtain ⟨t'', honward', hrelay'⟩ := Onward.signal t' id completion
    exact ⟨t'', honward.trans honward', hrelay ▸ hrelay'⟩
  answered _ _ _ h := h
  looksUp _ := trivial

/-- What an act does that issues nothing. -/
theorem leaves_onward (huser : act ≠ .work) (huncounted : act.calls = 0) {t : Traffic Reaction}
    (hsame : t.relay = s.relay) :
    Leaves act.run (fun s' => ∃ t', Onward t t' ∧ t'.relay = s'.relay) s := by
  have hplayed (hplays : act.plays = true) :=
    (tolerant_onward t).keeps_run (fun _ _ => trivial) hplays (fun _ _ => trivial) s ⟨t, .refl t, hsame⟩
  -- the acts on loops are one relay step each, and every other one plays a script
  cases act with
  | switch change => exact leaves_bind (leaves_modify ⟨t, .refl t, hsame⟩) fun _ _ h => leaves_pure h
  | openLoop =>
    refine leaves_bind (leaves_modify ⟨_, .openLoop t, ?_⟩) fun _ _ h => leaves_pure h
    exact congrArg (·.openLoop.2) hsame
  | dropLoop loop =>
    refine leaves_bind (leaves_modify ⟨_, .dropLoop t loop, ?_⟩) fun _ _ h => leaves_pure h
    exact congrArg (·.dropLoop loop) hsame
  | deliver loop =>
    refine leaves_bind (Yields.leaves (yields_deliverNext.mono ?_)) fun _ _ h => leaves_pure h
    rintro _ _ (rfl | ⟨id, claimed, after, hnext, rfl⟩)
    · exact ⟨t, .refl t, hsame⟩
    · exact Onward.deliver (hsame ▸ hnext)
  | issue => cases huncounted
  | work => exact absurd rfl huser
  | _ => exact hplayed rfl

/-- An issue puts its call in the registry at most if it succeeds. -/
theorem ends_issueFrom_proceeds {handle : Handle} {op : Opcode} {input : Codec.Writer} {l : LoopId}
    {reaction : Reaction} (halive : s.relay.Alive l) {t : Traffic Reaction}
    (hsame : t.relay = s.relay) :
    Ends (issueFrom thread handle op input l reaction) (fun outcome s' =>
      ∃ t', Proceeds t t' 1 (fun id => outcome = .ok () ∧ id = s.relay.nextCall) ∧
        t'.relay = s'.relay) s := by
  rw [← hsame] at halive ⊢
  -- whatever the call does, it goes on from the traffic in which it is begun
  have hbegun := Onward.refl { t with
    relay := (t.relay.begin l reaction).2
    begun := t.begun + 1
    issued := ⟨t.relay.nextCall, l, reaction⟩ :: t.issued }
  refine ((tolerant_onward _).ends_issueFrom
    (fun _ => (Script.Makes.any _).mono_calls fun _ _ => trivial)
    ⟨_, hbegun, by rw [hsame]⟩).mono ?_
  rintro outcome s' ⟨called, ⟨t', honward, hrelay⟩, rfl⟩
  cases outcome with
  | ok _ =>
    obtain ⟨t'', hproceeds, hrelay'⟩ := proceeds_issue halive honward false
    exact ⟨t'', ⟨hproceeds.steps, hproceeds.underway, hproceeds.begun, fun id l' hmem =>
      (hproceeds.registered id l' hmem).imp_right fun hnew => ⟨rfl, hnew.2⟩⟩, hrelay'.trans hrelay⟩
  | error e =>
    obtain ⟨t'', hproceeds, hrelay'⟩ := proceeds_issue halive honward true
    refine ⟨t'', ⟨hproceeds.steps, hproceeds.underway, hproceeds.begun, fun id l' hmem =>
      (hproceeds.registered id l' hmem).imp_right fun hnew => nomatch hnew.1⟩, ?_⟩
    rw [hrelay', hrelay, hsame]
    rfl

/-- **What an act does to the relay is steps of traffic**, if it is not the turn of a worker. It puts a
call in the registry at most if it issues one. -/
theorem World.Goes.proceeds {w w' : World} (hgoes : w.Goes act outcome w') (huser : act ≠ .work)
    (halive : ∀ l, act.loop? = some l → w.session.relay.Alive l) {t : Traffic Reaction}
    (hsame : t.relay = w.session.relay) :
    ∃ t', Proceeds t t' act.calls (fun id =>
      act.calls = 1 ∧ outcome = .ok none ∧ id = w.session.relay.nextCall) ∧
      t'.relay = w'.session.relay := by
  -- only an issue begins a call
  by_cases huncounted : act.calls = 0
  · obtain ⟨t', honward, hrelay⟩ := (leaves_onward huser huncounted hsame).of_run hgoes.ran
    refine ⟨t', ?_, hrelay⟩
    rw [huncounted]
    exact honward.proceeds _
  · cases act with
    | issue thread handle op input loop reaction =>
      obtain ⟨result, s₁, hissued, hended⟩ := run_bind_eq_ok hgoes.ran
      cases hended
      obtain ⟨t', hproceeds, hrelay⟩ := ends_issueFrom_proceeds (halive loop rfl) hsame result _ hissued
      refine ⟨t', ⟨hproceeds.steps, hproceeds.underway, hproceeds.begun, fun id l hmem => ?_⟩, hrelay⟩
      refine (hproceeds.registered id l hmem).imp_right fun hnew => ⟨rfl, ?_, hnew.2⟩
      rw [hnew.1]
      rfl
    | _ => exact absurd rfl huncounted

/-- A call that an act has issued has its task. -/
theorem World.Goes.queues {w w' : World} {kept : Multiset Ref} (hgoes : w.Goes act (.ok none) w')
    (hbalanced : Balanced w.session kept) (hinRange : InRange w'.session) (hissues : act.calls = 1) :
    ∃ task ∈ w'.session.runtime.tasks, task.callback = .callback .relay ∧
      task.data = .ofNat64 w.session.relay.nextCall := by
  cases act with
  | issue thread handle op input loop reaction =>
    obtain ⟨result, s₁, hissued, hended⟩ := run_bind_eq_ok hgoes.ran
    cases result with
    | error e => cases hended
    | ok _ =>
      cases hended
      exact hbalanced.partly_issueFrom_queues _ _ hissued hinRange rfl
  | _ => cases hissues

end GridBridge.Session
