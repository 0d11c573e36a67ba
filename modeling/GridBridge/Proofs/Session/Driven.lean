import GridBridge.Proofs.Bridge.Attended
import GridBridge.Proofs.Session.Exact
import GridBridge.Proofs.Session.Lasting
import GridBridge.Proofs.Session.LifeCycle

/-!
# The bridge drives a launcher

Whatever acts are carried out on a session, and however they end, its runtime lives on from event to
event: a session that plays a script answers each call by an event (**`Driven.comes_play`**), and a
script of the bridge calls only a runtime that runs. So every act is some events more
(**`keeps_run_driven`**), and the launcher of a session lives one life (**`life_cycle`**).
-/

namespace GridBridge.Session

open Protocol Seam Bridge Managed

variable {α : Type} {origin rt : Runtime} {events : List LifeEvent} {s s' : Session} {thread : ThreadId}

/-! ## Answers as events -/

namespace Remembers

variable (h : Remembers rt events) (thread : ThreadId)
include h

theorem launch_answers (args : LaunchArgs) : attending.answers rt.phase (.launch args)
    (rt.launch thread args).1 (rt.launch thread args).2.phase := by
  obtain ⟨code, hfailed⟩ | ⟨-, -, -, hmade⟩ := h.launch_cases thread args
  · rw [hfailed]
    show Runtime.phase (ite _ _ _) = _
    split <;> rfl
  · rw [hmade]
    exact phase_attachThread _ thread

theorem attach_answers :
    attending.answers rt.phase .attach (rt.attach thread).1 (rt.attach thread).2.phase := by
  have hphase := (Runtime.calm_attach rt thread).phase
  cases houtcome : (rt.attach thread).1 with
  | error code => exact hphase
  | ok _ =>
    have hup := ((h.attach_iff thread).mp houtcome).1
    exact ⟨hup, hphase.trans hup⟩

end Remembers

/-- **An answer is an event**, and it is what the contract counts on. -/
theorem Lived.answer (hnew : New origin) (hlived : Lived origin events rt)
    (hkept : attended events = true)
    {request : Call} (htakes : attending.takes rt.phase request) (thread : ThreadId) :
    ∃ event, Lived origin (event :: events) ((Managed.answer thread request).run.run rt).2 ∧
      attended (event :: events) = true ∧
      ∀ reply, ((Managed.answer thread request).run.run rt).1 = .ok reply → attending.answers rt.phase
        request reply ((Managed.answer thread request).run.run rt).2.phase := by
  have hremembers := hlived.remembers hnew
  by_cases honThread : request.onThread = true
  · have hsame : Remembers.Same rt ((Managed.answer thread request).run.run rt).2 :=
      leaves_answer_onThread (Remembers.inner_same rt) (fun _ h => { h with }) honThread
        ⟨rfl, rfl, rfl, rfl⟩
    refine ⟨_, hlived.call thread honThread, ?_, fun reply _ => ?_⟩
    · rw [attended, hkept, ← hremembers.phase, htakes.1 honThread]
      rfl
    · cases request with
      | launch _ | attach | destroy => cases honThread
      | _ => exact hsame.phase
  · cases request with
    -- the calls that make, join or end the runtime are events of their own
    | launch args =>
      refine ⟨_, hlived.launch thread args, hkept, ?_⟩
      rintro _ ⟨⟩
      exact hremembers.launch_answers thread args
    | attach =>
      refine ⟨_, hlived.attach thread, hkept, ?_⟩
      rintro _ ⟨⟩
      exact hremembers.attach_answers thread
    | destroy =>
      have hmade : created events = true := hremembers.begun_iff.mp (htakes.2 rfl)
      exact ⟨_, hlived.destroy hmade, hkept, fun _ _ => (hremembers.destroy hmade).phase⟩
    | _ => exact absurd rfl honThread

/-! ## Sessions -/

/-- The runtime of the session has lived so, and nothing but the bridge has called it. -/
structure Driven (origin : Runtime) (events : List LifeEvent) (s : Session) : Prop where
  untapped : Untapped s
  lived : Lived origin events s.runtime
  attended : attended events = true
  /-- There is a context only for a runtime that was made. -/
  made : s.context.isSome = true → created events = true

/-- The session has come there by some events more. -/
def DrivenOn (origin : Runtime) (events : List LifeEvent) (s : Session) : Prop :=
  ∃ more, Driven origin (more ++ events) s

theorem created_append {events : List LifeEvent} (more : List LifeEvent)
    (hmade : created events = true) : created (more ++ events) = true := by
  rw [created, List.any_append]
  exact Bool.or_eq_true_iff.mpr (.inr hmade)

theorem Driven.on (h : Driven origin events s) : DrivenOn origin events s := ⟨[], h⟩

theorem DrivenOn.trans {more : List LifeEvent} (h : DrivenOn origin (more ++ events) s) :
    DrivenOn origin events s := by
  obtain ⟨later, hdriven⟩ := h
  exact ⟨later ++ more, by rwa [List.append_assoc]⟩

/-- A change beside runtime, context and tap. -/
theorem Driven.beside (h : Driven origin events s) (hruntime : s'.runtime = s.runtime)
    (hsteady : Steady s s') : Driven origin events s' where
  untapped := hsteady.untapped h.untapped
  lived := hruntime ▸ h.lived
  attended := h.attended
  made hsome := h.made (hsteady.context ▸ hsome)

/-- Another context, or none. -/
theorem Driven.onContext (h : Driven origin events s) (context : Option Context)
    (hmade : context.isSome = true → created events = true) :
    Driven origin events { s with context } where
  untapped := ⟨h.untapped.substitutes, h.untapped.holding⟩
  lived := h.lived
  attended := h.attended
  made := hmade

/-- A event that makes no runtime, beside context and tap. -/
theorem Driven.event (h : Driven origin events s) {event : LifeEvent}
    (hlived : Lived origin (event :: events) s'.runtime)
    (hkept : Session.attended (event :: events) = true) (hsteady : Steady s s') :
    Driven origin (event :: events) s' where
  untapped := hsteady.untapped h.untapped
  lived := hlived
  attended := hkept
  made hsome := created_append [event] (h.made (hsteady.context ▸ hsome))

/-- What the runtime has handed out is received. -/
theorem Driven.received (h : Driven origin events s) :
    Driven origin (.receive :: events) (receiveAll s) := by
  obtain ⟨hruntime, hsteady⟩ := receiveAll_spec s
  exact h.event (hruntime ▸ h.lived.receive) h.attended hsteady

/-! ## Playing scripts -/

theorem Driven.comes_answerDirect (hnew : New origin) (h : Driven origin events s) {request : Call}
    (htakes : attending.takes s.runtime.phase request) :
    Comes (answerDirect thread request) (fun reply s' => DrivenOn origin events s' ∧
      attending.answers s.runtime.phase request reply s'.runtime.phase)
      (fun _ => DrivenOn origin events) s := by
  obtain ⟨event, hlived, hkept, hanswers⟩ := h.lived.answer hnew h.attended htakes thread
  refine comes_get ?_
  cases hran : (Managed.answer thread request).run.run s.runtime with
  | mk outcome rt =>
    rw [hran] at hlived hanswers
    have hdriven : Driven origin (event :: events) { s with runtime := rt } :=
      h.event hlived hkept ⟨rfl, rfl, rfl⟩
    have hreceived : DrivenOn origin events (receiveAll { s with runtime := rt }) :=
      ⟨[.receive, event], hdriven.received⟩
    refine comes_bind (comes_set ?_)
    cases outcome with
    -- a fatal use stops the script, but what it did until then has happened
    | error cause => exact comes_throw hreceived
    | ok reply =>
      refine comes_pure ⟨hreceived, ?_⟩
      rw [(receiveAll_spec { s with runtime := rt }).1]
      exact hanswers reply rfl

/-- **A script that keeps to the contract is played event by event.** -/
theorem Driven.comes_play (hnew : New origin) {script : Script α} {Q : α → Phase → Prop}
    (hkeeps : script.wp attending Q s.runtime.phase) (h : Driven origin events s) :
    Comes (play thread script) (fun value s' => DrivenOn origin events s' ∧ Q value s'.runtime.phase)
      (fun _ => DrivenOn origin events) s := by
  -- the history grows with each answer, so the induction is over all histories
  induction script generalizing s events with
  | done value => exact comes_pure ⟨h.on, hkeeps⟩
  | call request next ih =>
    refine comes_bind (comes_answer h.untapped ((h.comes_answerDirect hnew hkeeps.1).mono ?_ ?_))
    · rintro reply s' ⟨⟨more, hdriven⟩, hanswers⟩ line
      have htraced : Driven origin (more ++ events) { s' with tap := s'.tap.trace line } :=
        hdriven.beside rfl (steady_trace s' line)
      refine (ih reply (s := { s' with tap := s'.tap.trace line }) (hkeeps.2 reply _ hanswers)
        htraced).mono ?_ fun _ _ hlater => hlater.trans
      exact fun value s'' ⟨hlater, hended⟩ => ⟨hlater.trans, hended⟩
    · exact fun _ _ hstopped => hstopped
  | report fault next ih =>
    refine comes_bind (comes_modify ?_)
    split
    · exact ih (s := { s with reported := s.reported ++ [fault] }) hkeeps (h.beside rfl ⟨rfl, rfl, rfl⟩)
    · exact ih hkeeps h

theorem Driven.leaves_play (hnew : New origin) {script : Script α} {Q : α → Phase → Prop}
    (hkeeps : script.wp attending Q s.runtime.phase) (h : Driven origin events s) :
    Leaves (play thread script) (DrivenOn origin events) s :=
  ((h.comes_play hnew hkeeps).mono (fun _ _ hlater => hlater.1) fun _ _ hlater => hlater).leaves

/-! ## Acts -/

/-- What makes a history longer keeps it from getting lost. -/
theorem keeps_of_driven {x : Step α} (hlives : ∀ {events : List LifeEvent} {s : Session},
      Driven origin events s → Leaves x (DrivenOn origin events) s) :
    Keeps (DrivenOn origin events) x := by
  rintro s ⟨more, hdriven⟩
  exact DrivenOn.trans (hlives hdriven)

/-- A change beside runtime, context and tap. -/
theorem keeps_beside_driven {f : Session → Session} (hruntime : ∀ s, (f s).runtime = s.runtime)
    (hsteady : ∀ s, Steady s (f s)) : Keeps (DrivenOn origin events) (modify f) :=
  keeps_modify fun s ⟨more, hdriven⟩ => ⟨more, hdriven.beside (hruntime s) (hsteady s)⟩

/-- A handle more or less makes no context. -/
theorem keeps_countHandles_driven (f : Nat → Nat) :
    Keeps (DrivenOn origin events) (countHandles f) :=
  keeps_modify fun s ⟨more, hdriven⟩ =>
    ⟨more, hdriven.onContext _ fun hsome => hdriven.made (by simpa using hsome)⟩

section Acts

variable (hnew : New origin)
include hnew

theorem keeps_play_attended {script : Script α} (hattended : Attended script) :
    Keeps (DrivenOn origin events) (play thread script) :=
  keeps_of_driven fun hdriven => hdriven.leaves_play hnew (hattended _)

/-- A context is torn down only for a runtime that was made. -/
theorem Driven.leaves_dropContextOn (h : Driven origin events s) :
    Leaves (dropContextOn thread) (DrivenOn origin events) s := by
  refine leaves_get ?_
  cases hcontext : s.context with
  | none => exact leaves_pure h.on
  | some ctx =>
    have hmade : created events = true := h.made (by rw [hcontext]; rfl)
    have hbegun := (h.lived.remembers hnew).begun_iff.mpr hmade
    have htorn : Leaves (play thread ctx.tearDown) (DrivenOn origin events)
      { s with context := none } :=
      (h.onContext none nofun).leaves_play hnew (ctx.wp_tearDown_attending hbegun)
    exact leaves_next rfl (leaves_bind htorn fun _ _ hlater => leaves_pure hlater)

/-- There is a new context only after a start that succeeded, which has made a runtime. -/
theorem Driven.leaves_startOn (h : Driven origin events s) {args : LaunchArgs}
    {hasErrorCallback : Bool} :
    Leaves (startOn thread args hasErrorCallback) (DrivenOn origin events) s := by
  refine Comes.leaves (comes_bind ((h.comes_play hnew (Context.wp_start_attending args)).mono ?_ ?_))
  · rintro (e | descriptors) s' ⟨⟨more, hdriven⟩, hended⟩
    · exact comes_pure ⟨more, hdriven⟩
    -- a start that succeeded was remembered, so the context stands on a created runtime
    · have hmade : created (more ++ events) = true :=
        ((hdriven.lived.remembers hnew).running_iff.mp hended).1
      have hrest : Leaves (do
          let _ ← dropContextOn thread
          modify fun s => { s with
            context := some { descriptors, hasErrorCallback, describeFaults := s.describeFaults } }
          return .ok () : Step (Except BridgeError Unit)) (DrivenOn origin (more ++ events)) s' := by
        refine leaves_bind (hdriven.leaves_dropContextOn hnew) fun _ s'' ⟨later, hdriven⟩ => ?_
        refine leaves_bind (leaves_modify ⟨later, ?_⟩) fun _ _ hlater => leaves_pure hlater
        exact hdriven.onContext _ fun _ => created_append later hmade
      exact Leaves.comes (DrivenOn.trans hrest)
  · exact fun _ _ hlater => hlater

/-- **Whatever an act does, it does event by event**, however it ends. -/
theorem keeps_run_driven (act : Act) : Keeps (DrivenOn origin events) act.run := by
  have hplayed {α : Type} {script : Script α} (thread : ThreadId) (hattended : Attended script) :
      Keeps (DrivenOn origin events) (play thread script) := keeps_play_attended hnew hattended
  have hcalling {α : Type} (thread : ThreadId) (operation : Option Context → Operation α)
      (hattended : ∀ current, Attended (operation current).run) :
      Keeps (DrivenOn origin events) (Act.calling thread operation) :=
    keeps_get fun _ => keeps_quietly (hplayed thread (hattended _))
  have hopened {α : Type} {operation : Operation α} (thread : ThreadId) (handle : α → Handle)
      (hattended : Attended operation.run) :
      Keeps (DrivenOn origin events) (Act.opening handle (openOn thread operation)) :=
    keeps_opening (keeps_openOn_of (hplayed thread hattended) keeps_countHandles_driven)
  cases act with
  | switch change =>
    refine keeps_bind (keeps_of_driven fun hdriven => leaves_modify ⟨[.switch change], ?_⟩)
      fun _ => keeps_pure
    exact hdriven.event (hdriven.lived.switch change) hdriven.attended ⟨rfl, rfl, rfl⟩
  | start thread args hasErrorCallback =>
    exact keeps_quietly (keeps_of_driven fun hdriven => hdriven.leaves_startOn hnew)
  | attach thread => exact keeps_onContext fun _ => keeps_quietly (hplayed thread attended_attach)
  | openInstance thread configPath name =>
    exact keeps_onContext fun ctx => hopened thread _ (attended_start ctx configPath name)
  | findInstance thread name =>
    exact keeps_onContext fun ctx => hopened thread _ (attended_find ctx name)
  | openCache thread source name =>
    exact keeps_get fun _ => hopened thread _ (attended_cache _ source name)
  | put thread cache key value =>
    exact hcalling thread (cache.put · key value) fun _ => attended_inOp _ _ _ _
  | remove thread cache key => exact hcalling thread (cache.remove · key) fun _ => attended_remove _ _ _
  | size thread cache => exact hcalling thread cache.size fun _ => attended_inOutOp _ _ _ _
  | callIn thread handle op input =>
    exact hcalling thread (handle.inOp · op input) fun _ => attended_inOp _ _ _ _
  | callInOut thread handle op input =>
    exact hcalling thread (handle.inOutOp · op input) fun _ => attended_inOutOp _ _ _ _
  | callAsync thread handle op input callback data =>
    exact hcalling thread (handle.inOutOpAsync · op input callback data) fun _ =>
      attended_inOutOpAsync _ _ _ _ _ _
  | issue thread handle op input loop reaction =>
    refine keeps_quietly (keeps_bind ?_ fun id => keeps_get fun s => ?_)
    -- the call is registered first and withdrawn if it fails, which the runtime does not see
    · exact fun s ⟨more, hdriven⟩ => leaves_modifyGet ⟨more, hdriven.beside rfl ⟨rfl, rfl, rfl⟩⟩
    · refine keeps_bind (hplayed thread (attended_inOutOpAsync _ _ _ _ _ _)) fun outcome => ?_
      cases outcome with
      | ok _ => exact keeps_pure
      | error e =>
        exact keeps_bind (keeps_beside_driven (fun _ => rfl) fun _ => ⟨rfl, rfl, rfl⟩)
          fun _ => keeps_pure
  | dropHandle thread handle =>
    exact keeps_bind (keeps_releaseOn_of (fun _ => hplayed thread (attended_release _ _))
      keeps_countHandles_driven) fun _ => keeps_pure
  | dropContext thread =>
    exact keeps_bind (keeps_of_driven fun hdriven => hdriven.leaves_dropContextOn hnew) fun _ =>
      keeps_pure
  | openLoop | dropLoop =>
    exact keeps_bind (keeps_beside_driven (fun _ => rfl) fun _ => ⟨rfl, rfl, rfl⟩) fun _ => keeps_pure
  | deliver loop =>
    refine keeps_bind (fun s ⟨more, hdriven⟩ => Yields.leaves (yields_deliverNext.mono ?_))
      fun _ => keeps_pure
    rintro _ _ (rfl | ⟨id, claimed, after, -, rfl⟩)
    · exact ⟨more, hdriven⟩
    · exact ⟨more, hdriven.beside rfl ⟨rfl, rfl, rfl⟩⟩
  | work =>
    refine keeps_bind (keeps_of_driven fun {events s} hdriven => leaves_get ?_) fun _ => keeps_pure
    cases hturn : s.runtime.work? with
    | none => exact leaves_pure hdriven.on
    | some rt =>
      have hworked : Driven origin (.work :: events) { s with runtime := rt } :=
        hdriven.event (hdriven.lived.work hturn) hdriven.attended ⟨rfl, rfl, rfl⟩
      exact leaves_bind (leaves_modify ⟨[.receive, .work], hworked.received⟩)
        fun _ _ hlater => leaves_pure hlater

end Acts

/-! ## One life -/

/-- The session after an act, however that ended. -/
def Act.after (s : Session) (act : Act) : Session := (act.run.run.run s).2

theorem drivenOn_acts (hnew : New origin) (h : DrivenOn origin events s) (acts : List Act) :
    DrivenOn origin events (acts.foldl Act.after s) := by
  induction acts generalizing s with
  | nil => exact h
  | cons act rest ih => exact ih (keeps_run_driven hnew act s h)

/-- **A launcher lives one life.** Its history tells what it shows and what comes of the next launch and
the next attach. If the bridge drives it, then with each act the history goes on, and calls come only
while the runtime is up. -/
theorem life_cycle {s : Session} (hnew : New s.runtime) (huntapped : Untapped s)
    (hbare : s.context = none) :
    (∀ {events : List LifeEvent} {rt : Runtime}, Lived s.runtime events rt → LifeCycle rt events) ∧
      ∀ acts more : List Act, ∃ events later, Lived s.runtime events (acts.foldl Act.after s).runtime ∧
        Lived s.runtime (later ++ events) ((acts ++ more).foldl Act.after s).runtime ∧
        attended (later ++ events) = true := by
  refine ⟨fun hlived => (hlived.remembers hnew).lifeCycle, fun acts more => ?_⟩
  -- nothing has happened at first; the acts go on from there, and then the others
  have hfirst : Driven s.runtime [] s := ⟨huntapped, .new, rfl, by rw [hbare]; exact nofun⟩
  obtain ⟨events, hdriven⟩ := drivenOn_acts hnew hfirst.on acts
  obtain ⟨later, hdriven'⟩ := drivenOn_acts hnew hdriven.on more
  rw [List.append_nil] at hdriven hdriven'
  refine ⟨events, later, hdriven.lived, ?_, hdriven'.attended⟩
  rw [List.foldl_append]
  exact hdriven'.lived

/-- A code is armed, which the first launch uses up; the second one makes a runtime. -/
def armedOnce : List LifeEvent :=
  [.destroy, .launch 0 ⟨runtimeVersion, [], false⟩ (.ok ()),
    .launch 0 ⟨runtimeVersion, [], false⟩ (.error Status.noMemory),
    .switch (.failCreate Status.noMemory)]

theorem life_cycle_armed_once :
    New ({} : Session).runtime ∧ Untapped {} ∧ ({} : Session).context = none ∧
      ∃ rt, Lived {} armedOnce rt ∧ LifeCycle rt armedOnce := by
  have hnew : New ({} : Session).runtime := ⟨rfl, rfl, rfl, rfl, rfl, rfl, rfl⟩
  have huntapped : Untapped {} := ⟨rfl, rfl⟩
  have hbegun : Lived {} [] {} := .new
  have hlived : Lived {} armedOnce _ :=
    (((hbegun.switch (.failCreate Status.noMemory)).launch 0 ⟨runtimeVersion, [], false⟩).launch 0
      ⟨runtimeVersion, [], false⟩).destroy rfl
  exact ⟨hnew, huntapped, rfl, _, hlived, (life_cycle hnew huntapped rfl).1 hlived⟩

end GridBridge.Session
