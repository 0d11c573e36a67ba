import GridBridge.Proofs.Managed.Durable
import GridBridge.Session.Launcher

/-!
# The life of a launcher

A launcher is launched, switched, attached to and destroyed in any order and as often as one likes, and
its runtime is called and runs tasks. A `LifeEvent` is one of these with its answer, and **`Lived`** is
a runtime with its history, newest event first. `Remembers` says what the runtime knows of its history;
every event keeps it (**`Lived.remembers`**), so what the next launch and the next attach come to is
told from the history alone (`Remembers.lifeCycle`).
-/

namespace GridBridge.Session

open Protocol Seam Managed

/-! ## A launch -/

/-- An option starts with a dash. -/
def OptionLike (option : String) : Prop := option.toList.head? = some '-'

instance (option : String) : Decidable (OptionLike option) := inferInstanceAs (Decidable (_ = _))

/-- Version and options are such that a launcher takes them. -/
def Acceptable (args : LaunchArgs) : Prop :=
  ¬ args.version < runtimeVersion ∧
    (args.ignoreUnrecognized = true ∨ ∀ option ∈ args.options, OptionLike option)

instance (args : LaunchArgs) : Decidable (Acceptable args) := inferInstanceAs (Decidable (_ ∧ _))

/-- Acceptable arguments pass the check of a launch. -/
theorem checkLaunch_of_acceptable {args : LaunchArgs} (hacceptable : Acceptable args) :
    checkLaunch args = .ok () := by
  obtain ⟨hnew, hknown⟩ := hacceptable
  rw [checkLaunch, if_neg hnew, if_pos]
  simpa [OptionLike] using hknown

/-- The version is looked at before the options. -/
theorem checkLaunch_of_old {args : LaunchArgs} (hold : args.version < runtimeVersion) :
    checkLaunch args = .error Status.version :=
  if_pos hold

/-- If the version will do, what is not acceptable is an option. -/
theorem checkLaunch_of_odd {args : LaunchArgs} (hnew : ¬ args.version < runtimeVersion)
    (hodd : ¬ Acceptable args) : checkLaunch args = .error Status.invalid := by
  rw [checkLaunch, if_neg hnew, if_neg]
  intro hknown
  exact hodd ⟨hnew, by simpa [OptionLike] using hknown⟩

/-- What a launch comes to, decided in this order: whether there was a runtime before, the version, the
options, the code that is armed. -/
def launchOutcome (created : Bool) (armed : Status) (args : LaunchArgs) : Except Status Unit :=
  if created then .error Status.alreadyExists
  else if args.version < runtimeVersion then .error Status.version
  else if ¬ Acceptable args then .error Status.invalid
  else if armed ≠ Status.ok then .error armed
  else .ok ()

/-- A launch in the order of its steps. The runtime counts as running before anything is checked, the
armed code is taken away with the look at it, and whatever fails sets the phase back. -/
def launchInSteps (rt : Runtime) (thread : ThreadId) (args : LaunchArgs) :
    Except Status Unit × Runtime :=
  if rt.phase ≠ .idle then (.error Status.alreadyExists, rt)
  else
    let claimed := { rt with phase := .running }
    match checkLaunch args with
    | .error code => (.error code, { claimed with phase := .idle })
    | .ok () =>
      let code := claimed.faults.createError
      let disarmed := { claimed with faults := { claimed.faults with createError := Status.ok } }
      if code ≠ Status.ok then (.error code, { disarmed with phase := .idle })
      else (.ok (), { disarmed with options := args.options }.attachThread thread)

/-- The steps come to the launch as it is written, since a phase that is set back is the one before. -/
theorem launchInSteps_eq (rt : Runtime) (thread : ThreadId) (args : LaunchArgs) :
    launchInSteps rt thread args = rt.launch thread args := by
  rw [Runtime.launch_eq, launchInSteps]
  by_cases hidle : rt.phase = .idle
  · rw [if_neg (not_not.mpr hidle), if_neg (not_not.mpr hidle)]
    -- the phase is set back to what it was
    have hback : { rt with phase := .idle } = rt := by rw [← hidle]
    cases checkLaunch args with
    | error code => exact congrArg (Prod.mk (Except.error code)) hback
    | ok _ =>
      dsimp only
      -- an armed code was taken away, and one that is not armed was no fault to begin with
      by_cases hunset : rt.faults.createError = Status.ok
      · rw [if_neg (not_not.mpr hunset), if_neg (not_not.mpr hunset), ← hunset]
      · rw [if_pos hunset, if_pos hunset, hidle]
  · rw [if_pos hidle, if_pos hidle]

/-! ## Histories -/

/-- One thing done to a launcher, with what it answered. -/
inductive LifeEvent where
  | launch (thread : ThreadId) (args : LaunchArgs) (outcome : Except Status Unit)
  | attach (thread : ThreadId) (outcome : Except Status Unit)
  | destroy
  | switch (change : Switch)
  /-- A call of a thread that has attached some time. -/
  | call (thread : ThreadId) (request : Call)
  /-- A worker runs a task. -/
  | work
  /-- Native code takes the completions in that were handed out. -/
  | receive

/-- The event makes a runtime. -/
def LifeEvent.creates : LifeEvent → Bool
  | .launch _ _ (.ok _) => true
  | _ => false

/-- The event is the end of a runtime. -/
def LifeEvent.ends : LifeEvent → Bool
  | .destroy => true
  | _ => false

/-- The event attaches the thread. -/
def LifeEvent.joins (thread : ThreadId) : LifeEvent → Bool
  | .launch other _ (.ok _) | .attach other (.ok _) => other == thread
  | _ => false

/-- A runtime was made. -/
def created (events : List LifeEvent) : Bool := events.any LifeEvent.creates

/-- A runtime was destroyed. -/
def ended (events : List LifeEvent) : Bool := events.any LifeEvent.ends

/-- The thread was attached. -/
def joined (thread : ThreadId) (events : List LifeEvent) : Bool := events.any (LifeEvent.joins thread)

/-- The code that was armed last, unless a launch has used it up since: one that would have been made
but for it. -/
def armed : List LifeEvent → Status
  | [] => Status.ok
  | .switch (.failCreate code) :: _ => code
  | .launch _ args _ :: before =>
    if created before = false ∧ Acceptable args then Status.ok else armed before
  | _ :: before => armed before

/-- Attaching was switched off last. -/
def refused : List LifeEvent → Bool
  | [] => false
  | .switch (.refuseAttach on) :: _ => on
  | _ :: before => refused before

/-- Where a runtime with this history stands. -/
def standing (events : List LifeEvent) : Phase :=
  if ended events then .destroyed else if created events then .running else .idle

/-- Calls came only while the runtime was up. -/
def attended : List LifeEvent → Bool
  | [] => true
  | .call .. :: before => decide (standing before = .running) && attended before
  | _ :: before => attended before

/-- A launcher at its beginning. -/
structure New (rt : Runtime) : Prop where
  phase : rt.phase = .idle
  createError : rt.faults.createError = Status.ok
  refuseAttach : rt.faults.refuseAttach = false
  attached : rt.attached = []
  entry : rt.entry = none
  instances : rt.grid.instances = []
  tasks : rt.tasks = []

/-- A runtime and its history since it was new. There is nothing to destroy before it was made; calls
may come at any time. -/
inductive Lived (origin : Runtime) : List LifeEvent → Runtime → Prop where
  | new : Lived origin [] origin
  | launch {events : List LifeEvent} {rt : Runtime} (hbefore : Lived origin events rt)
      (thread : ThreadId) (args : LaunchArgs) :
      Lived origin (.launch thread args (rt.launch thread args).1 :: events) (rt.launch thread args).2
  | attach {events : List LifeEvent} {rt : Runtime} (hbefore : Lived origin events rt)
      (thread : ThreadId) :
      Lived origin (.attach thread (rt.attach thread).1 :: events) (rt.attach thread).2
  | destroy {events : List LifeEvent} {rt : Runtime} (hbefore : Lived origin events rt)
      (hmade : created events = true) : Lived origin (.destroy :: events) rt.destroy
  | switch {events : List LifeEvent} {rt : Runtime} (hbefore : Lived origin events rt)
      (change : Switch) : Lived origin (.switch change :: events) (change.apply rt)
  | call {events : List LifeEvent} {rt : Runtime} (hbefore : Lived origin events rt) (thread : ThreadId)
      {request : Call} (honThread : request.onThread = true) :
      Lived origin (.call thread request :: events) ((Managed.answer thread request).run.run rt).2
  | work {events : List LifeEvent} {rt rt' : Runtime} (hbefore : Lived origin events rt)
      (hturn : rt.work? = some rt') : Lived origin (.work :: events) rt'
  | receive {events : List LifeEvent} {rt : Runtime} (hbefore : Lived origin events rt) :
      Lived origin (.receive :: events) { rt with outbox := [] }

/-! ## What a runtime remembers -/

/-- What the runtime knows of its history. -/
structure Remembers (rt : Runtime) (events : List LifeEvent) : Prop where
  phase : rt.phase = standing events
  /-- At most one launch has made a runtime. -/
  once : events.countP LifeEvent.creates ≤ 1
  made : ended events = true → created events = true
  createError : rt.faults.createError = armed events
  refuseAttach : rt.faults.refuseAttach = refused events
  distinct : rt.attached.Nodup
  attached : ∀ thread, thread ∈ rt.attached ↔ ended events = false ∧ joined thread events = true
  /-- Nothing is left of a runtime that was destroyed, and nobody brings anything there. -/
  empty : ended events = true → attended events = true →
    rt.grid.instances = [] ∧ rt.entry = none ∧ rt.tasks = []

namespace Remembers

variable {origin rt rt' : Runtime} {events : List LifeEvent} {thread : ThreadId}

theorem of_new (hnew : New origin) : Remembers origin [] where
  phase := hnew.phase
  once := Nat.zero_le 1
  made := nofun
  createError := hnew.createError
  refuseAttach := hnew.refuseAttach
  distinct := hnew.attached ▸ List.nodup_nil
  attached thread := by simp [hnew.attached, joined]
  empty := nofun

/-- A runtime is idle as long as no launch has made it. -/
theorem idle_iff (h : Remembers rt events) : rt.phase = .idle ↔ created events = false := by
  have hmade := h.made
  rw [h.phase, standing]
  revert hmade
  cases ended events <;> cases created events <;> simp

/-- It has begun as soon as one has, and stays so. -/
theorem begun_iff (h : Remembers rt events) : rt.phase ≠ .idle ↔ created events = true := by
  rw [Ne, h.idle_iff, Bool.not_eq_false]

/-- It runs from the launch that made it to the end. -/
theorem running_iff (h : Remembers rt events) :
    rt.phase = .running ↔ created events = true ∧ ended events = false := by
  rw [h.phase, standing]
  cases ended events <;> cases created events <;> simp

/-- It was destroyed if its history says so. -/
theorem destroyed_iff (h : Remembers rt events) : rt.phase = .destroyed ↔ ended events = true := by
  rw [h.phase, standing]
  cases ended events <;> cases created events <;> simp

/-- Its end takes every thread off a runtime. -/
theorem attached_of_ended (h : Remembers rt events) (hgone : ended events = true) :
    rt.attached = [] := by
  rw [List.eq_nil_iff_forall_not_mem]
  intro thread hknown
  have halive := ((h.attached thread).mp hknown).1
  rw [hgone] at halive
  cases halive

/-- An event after which there is no other runtime and no other thread attached. -/
theorem quiet (h : Remembers rt events) {event : LifeEvent} (hcreates : event.creates = false)
    (hends : event.ends = false) (hjoins : ∀ thread, event.joins thread = false)
    (hcreateError : rt'.faults.createError = armed (event :: events))
    (hrefuseAttach : rt'.faults.refuseAttach = refused (event :: events))
    (hphase : rt'.phase = rt.phase)
    (hattached : rt'.attached = rt.attached)
    (hempty : ended events = true → attended (event :: events) = true →
      rt'.grid.instances = [] ∧ rt'.entry = none ∧ rt'.tasks = []) :
    Remembers rt' (event :: events) := by
  have hsameCreated : created (event :: events) = created events := by simp [created, hcreates]
  have hsameEnded : ended (event :: events) = ended events := by simp [ended, hends]
  have hsameJoined (thread : ThreadId) : joined thread (event :: events) = joined thread events := by
    simp [joined, hjoins]
  -- what the history counts is the same, so what the runtime remembers of it still agrees
  exact {
    phase := by rw [hphase, h.phase, standing, standing, hsameCreated, hsameEnded]
    once := by rw [List.countP_cons_of_neg (by simp [hcreates])]; exact h.once
    made := by rw [hsameCreated, hsameEnded]; exact h.made
    createError := hcreateError
    refuseAttach := hrefuseAttach
    distinct := hattached ▸ h.distinct
    attached := fun thread => by rw [hattached, hsameEnded, hsameJoined]; exact h.attached thread
    empty := hsameEnded ▸ hempty }

/-! ### Threads -/

/-- The threads that are attached afterwards are those from before, and the one that attached. -/
theorem mem_attachThread (rt : Runtime) (thread other : ThreadId) :
    other ∈ (rt.attachThread thread).attached ↔ thread = other ∨ other ∈ rt.attached := by
  unfold Runtime.attachThread
  split
  · rename_i hknown
    constructor
    · exact .inr
    · rintro (rfl | hknown)
      · simpa using hknown
      · exact hknown
  · rw [List.mem_cons, eq_comm]

/-- No thread stands among them twice. -/
theorem nodup_attachThread (hdistinct : rt.attached.Nodup) :
    (rt.attachThread thread).attached.Nodup := by
  unfold Runtime.attachThread
  split
  · exact hdistinct
  · rename_i hnew
    exact List.nodup_cons.mpr ⟨by simpa using hnew, hdistinct⟩

/-- A thread that is attached already is not attached again. -/
theorem attachThread_of_mem (hknown : thread ∈ rt.attached) : rt.attachThread thread = rt :=
  if_pos (by simpa using hknown)

/-- To attach a thread does not move a runtime on. -/
@[simp] theorem phase_attachThread (rt : Runtime) (thread : ThreadId) :
    (rt.attachThread thread).phase = rt.phase := by
  unfold Runtime.attachThread
  split <;> rfl

/-- Nor does it use a fault up. -/
@[simp] theorem faults_attachThread (rt : Runtime) (thread : ThreadId) :
    (rt.attachThread thread).faults = rt.faults := by
  unfold Runtime.attachThread
  split <;> rfl

/-- A thread joins a runtime that is up, or that the same event has made. -/
theorem join (h : Remembers rt events) (halive : ended events = false) {event : LifeEvent}
    (hends : event.ends = false) (hjoins : ∀ other, event.joins other = (thread == other))
    (hmade : created (event :: events) = true) (honce : (event :: events).countP LifeEvent.creates ≤ 1)
    (hcreateError : rt'.faults.createError = armed (event :: events))
    (hrefuseAttach : rt'.faults.refuseAttach = refused (event :: events))
    (hphase : rt'.phase = .running)
    (hattached : rt'.attached = rt.attached) :
    Remembers (rt'.attachThread thread) (event :: events) := by
  have hstillAlive : ended (event :: events) = false := by
    rw [ended, List.any_cons, hends]
    exact halive
  exact {
    phase := by simp [hphase, standing, hstillAlive, hmade]
    once := honce
    made := fun _ => hmade
    createError := by rw [faults_attachThread]; exact hcreateError
    refuseAttach := by rw [faults_attachThread]; exact hrefuseAttach
    distinct := nodup_attachThread (hattached ▸ h.distinct)
    -- the thread that joins is counted, and the others are those that were there
    attached := fun other => by
      rw [mem_attachThread, hattached, h.attached, halive, hstillAlive]
      simp [joined, hjoins]
    empty := fun hdead => by
      rw [hstillAlive] at hdead
      cases hdead }

/-! ### Launches -/

section Launch

variable (h : Remembers rt events) (thread : ThreadId) {args : LaunchArgs}
include h

/-- After a launch that made a runtime every launch is refused, and none changes anything. -/
theorem launch_of_created (hmade : created events = true) (args : LaunchArgs) :
    rt.launch thread args = (.error Status.alreadyExists, rt) := by
  rw [Runtime.launch_eq, if_pos (h.begun_iff.mpr hmade)]

/-- A launch that fails its check leaves the runtime as it was. -/
theorem launch_of_refused (hfirst : created events = false) {code : Status}
    (hrefused : checkLaunch args = .error code) : rt.launch thread args = (.error code, rt) := by
  rw [Runtime.launch_eq, if_neg (not_not.mpr (h.idle_iff.mpr hfirst)), hrefused]

/-- A launch that could have been made gives the armed code back, and disarms. -/
theorem launch_of_armed (hfirst : created events = false) (hacceptable : Acceptable args)
    (hset : armed events ≠ Status.ok) : rt.launch thread args =
      (.error (armed events), { rt with faults := { rt.faults with createError := Status.ok } }) := by
  rw [← h.createError] at hset ⊢
  rw [Runtime.launch_eq, if_neg (not_not.mpr (h.idle_iff.mpr hfirst)), checkLaunch_of_acceptable
    hacceptable]
  exact if_pos hset

/-- With nothing armed it makes the runtime, with its options and the thread that launched it. -/
theorem launch_of_unarmed (hfirst : created events = false) (hacceptable : Acceptable args)
    (hunset : armed events = Status.ok) : rt.launch thread args =
      (.ok (), { rt with phase := .running, options := args.options }.attachThread thread) := by
  rw [← h.createError] at hunset
  rw [Runtime.launch_eq, if_neg (not_not.mpr (h.idle_iff.mpr hfirst)), checkLaunch_of_acceptable
    hacceptable]
  exact if_neg (not_not.mpr hunset)

/-- **The history settles what a launch comes to.** -/
theorem launch_eq_outcome (args : LaunchArgs) :
    (rt.launch thread args).1 = launchOutcome (created events) (armed events) args := by
  unfold launchOutcome
  cases hfirst : created events with
  | true => rw [h.launch_of_created thread hfirst]; rfl
  -- from here on the checks come in the order in which a launch makes them
  | false =>
    simp only [Bool.false_eq_true, if_false]
    by_cases hold : args.version < runtimeVersion
    · rw [if_pos hold, h.launch_of_refused thread hfirst (checkLaunch_of_old hold)]
    · rw [if_neg hold]
      by_cases hacceptable : Acceptable args
      · rw [if_neg (not_not.mpr hacceptable)]
        by_cases hunset : armed events = Status.ok
        · rw [if_neg (not_not.mpr hunset), h.launch_of_unarmed thread hfirst hacceptable hunset]
        · rw [if_pos hunset, h.launch_of_armed thread hfirst hacceptable hunset]
      · rw [if_pos hacceptable, h.launch_of_refused thread hfirst (checkLaunch_of_odd hold hacceptable)]

/-- A launch fails and leaves the runtime as it was, but that it may use up the armed code; or it is
the first one that nothing stands in the way of. -/
theorem launch_cases (args : LaunchArgs) :
    (∃ code, rt.launch thread args = (.error code, if created events = false ∧ Acceptable args then
      { rt with faults := { rt.faults with createError := Status.ok } } else rt)) ∨
    created events = false ∧ Acceptable args ∧ armed events = Status.ok ∧ rt.launch thread args =
      (.ok (), { rt with phase := .running, options := args.options }.attachThread thread) := by
  by_cases hfirst : created events = false
  · by_cases hacceptable : Acceptable args
    -- only here does the launch look at the armed code, and thereby take it away
    · by_cases hunset : armed events = Status.ok
      · exact .inr ⟨hfirst, hacceptable, hunset, h.launch_of_unarmed thread hfirst hacceptable hunset⟩
      · rw [if_pos ⟨hfirst, hacceptable⟩]
        exact .inl ⟨_, h.launch_of_armed thread hfirst hacceptable hunset⟩
    · rw [if_neg fun hboth => hacceptable hboth.2]
      by_cases hold : args.version < runtimeVersion
      · exact .inl ⟨_, h.launch_of_refused thread hfirst (checkLaunch_of_old hold)⟩
      · exact .inl ⟨_, h.launch_of_refused thread hfirst (checkLaunch_of_odd hold hacceptable)⟩
  · rw [if_neg fun hboth => hfirst hboth.1]
    exact .inl ⟨_, h.launch_of_created thread (Bool.eq_true_of_not_eq_false hfirst) args⟩

/-- A launch is remembered, whether it failed or made a runtime. -/
theorem launch (args : LaunchArgs) :
    Remembers (rt.launch thread args).2 (.launch thread args (rt.launch thread args).1 :: events) := by
  obtain ⟨code, hfailed⟩ | ⟨hfirst, hacceptable, hunset, hmade⟩ := h.launch_cases thread args
  · rw [hfailed]
    have hused : armed (.launch thread args (.error code) :: events) =
        if created events = false ∧ Acceptable args then Status.ok else armed events := rfl
    -- a failure used the armed code up only if the launch came as far as to look at it
    by_cases hreached : created events = false ∧ Acceptable args
    · rw [if_pos hreached] at hused ⊢
      exact h.quiet rfl rfl (fun _ => rfl) hused.symm h.refuseAttach rfl rfl h.empty
    · rw [if_neg hreached] at hused ⊢
      exact h.quiet rfl rfl (fun _ => rfl) (hused ▸ h.createError) h.refuseAttach rfl rfl h.empty
  · rw [hmade]
    have halive : ended events = false := by
      by_contra hdead
      have hbefore := h.made (Bool.eq_true_of_not_eq_false hdead)
      rw [hfirst] at hbefore
      cases hbefore
    -- no launch before this one has made a runtime
    have hunmade : events.countP LifeEvent.creates = 0 := by
      simpa [created] using hfirst
    have hused : armed (.launch thread args (.ok ()) :: events) = Status.ok :=
      if_pos ⟨hfirst, hacceptable⟩
    refine h.join halive rfl (fun _ => rfl) rfl ?_ ?_ h.refuseAttach rfl rfl
    · rw [List.countP_cons_of_pos rfl, hunmade]
    · exact h.createError.trans (hunset.trans hused.symm)

end Launch

/-! ### The other events -/

/-- There is nothing to attach to unless the runtime is up. -/
theorem attach_of_down (hdown : rt.phase ≠ .running) (thread : ThreadId) :
    rt.attach thread = (.error Status.detached, rt) :=
  if_pos hdown

/-- A runtime that is up refuses every thread while attaching is switched off. -/
theorem attach_of_refused (h : Remembers rt events) (hup : rt.phase = .running)
    (hoff : refused events = true) (thread : ThreadId) :
    rt.attach thread = (.error Status.err, rt) := by
  rw [← h.refuseAttach] at hoff
  rw [Runtime.attach, if_neg (not_not.mpr hup), if_pos hoff]

/-- Otherwise it admits the thread. -/
theorem attach_of_admitted (h : Remembers rt events) (hup : rt.phase = .running)
    (hon : refused events = false) (thread : ThreadId) :
    rt.attach thread = (.ok (), rt.attachThread thread) := by
  rw [← h.refuseAttach] at hon
  rw [Runtime.attach, if_neg (not_not.mpr hup), hon]
  rfl

/-- Attaching is remembered, whatever it answered. -/
theorem attach (h : Remembers rt events) (thread : ThreadId) :
    Remembers (rt.attach thread).2 (.attach thread (rt.attach thread).1 :: events) := by
  by_cases hup : rt.phase = .running
  · cases hoff : refused events with
    | true =>
      rw [h.attach_of_refused hup hoff]
      exact h.quiet rfl rfl (fun _ => rfl) h.createError h.refuseAttach rfl rfl h.empty
    | false =>
      rw [h.attach_of_admitted hup hoff]
      obtain ⟨hmade, halive⟩ := h.running_iff.mp hup
      exact h.join halive rfl (fun _ => rfl) hmade h.once h.createError h.refuseAttach hup rfl
  · rw [attach_of_down hup]
    exact h.quiet rfl rfl (fun _ => rfl) h.createError h.refuseAttach rfl rfl h.empty

/-- The end of a runtime that was made: nothing is left of it. -/
theorem destroy (h : Remembers rt events) (hmade : created events = true) :
    Remembers rt.destroy (.destroy :: events) := by
  have hdead : ended (.destroy :: events) = true := rfl
  have hstillMade : created (.destroy :: events) = true := hmade
  have hleft : rt.destroy.phase = .destroyed ∧ rt.destroy.faults = rt.faults ∧
      rt.destroy.attached = [] ∧ (attended events = true → rt.destroy.grid.instances = [] ∧
        rt.destroy.entry = none ∧ rt.destroy.tasks = []) := by
    unfold Runtime.destroy
    -- a runtime can be destroyed twice, and the second time changes nothing
    split
    · rename_i hdown
      have hgone : ended events = true := h.destroyed_iff.mp hdown
      exact ⟨hdown, rfl, h.attached_of_ended hgone, h.empty hgone⟩
    · exact ⟨rfl, rfl, rfl, fun _ => ⟨rfl, rfl, rfl⟩⟩
  obtain ⟨hphase, hfaults, hattached, hempty⟩ := hleft
  exact {
    phase := hphase
    once := h.once
    made := fun _ => hstillMade
    createError := hfaults ▸ h.createError
    refuseAttach := hfaults ▸ h.refuseAttach
    distinct := hattached ▸ List.nodup_nil
    attached := fun other => by simp [hattached, hdead]
    empty := fun _ => hempty }

/-- Two switches bear on launches and attaches, and the history keeps the last of each. -/
theorem switch (h : Remembers rt events) (change : Switch) :
    Remembers (change.apply rt) (.switch change :: events) := by
  cases change with
  | failCreate code => exact h.quiet rfl rfl (fun _ => rfl) rfl h.refuseAttach rfl rfl h.empty
  | refuseAttach on => exact h.quiet rfl rfl (fun _ => rfl) h.createError rfl rfl rfl h.empty
  | _ => exact h.quiet rfl rfl (fun _ => rfl) h.createError h.refuseAttach rfl rfl h.empty

/-- What the runtime remembers, apart from what it has left to do. -/
structure Same (rt rt' : Runtime) : Prop where
  phase : rt'.phase = rt.phase
  createError : rt'.faults.createError = rt.faults.createError
  refuseAttach : rt'.faults.refuseAttach = rt.faults.refuseAttach
  attached : rt'.attached = rt.attached

/-- No change inside a runtime touches its phase, its threads or these two faults. -/
theorem inner_same (rt : Runtime) : Inner (Same rt) where
  made _ _ h := { h with }
  returned _ h := { h with }
  beside _ _ _ h := { h with }
  changed hchange h := by cases hchange <;> exact { h with }

/-- No call of a thread is one of these events. -/
theorem call (h : Remembers rt events) (thread : ThreadId) {request : Call}
    (honThread : request.onThread = true) :
    Remembers ((Managed.answer thread request).run.run rt).2 (.call thread request :: events) := by
  have hsame : Same rt ((Managed.answer thread request).run.run rt).2 :=
    leaves_answer_onThread (inner_same rt) (fun _ h => { h with }) honThread ⟨rfl, rfl, rfl, rfl⟩
  refine h.quiet rfl rfl (fun _ => rfl) (hsame.createError.trans h.createError)
    (hsame.refuseAttach.trans h.refuseAttach) hsame.phase hsame.attached fun hdead hattending => ?_
  -- a runtime that was destroyed is not up
  have hup : standing events = .running := by
    simp only [attended, Bool.and_eq_true, decide_eq_true_eq] at hattending
    exact hattending.1
  rw [standing, if_pos hdead] at hup
  cases hup

/-- Nor does a task that a worker runs. -/
theorem same_runTask (rt : Runtime) (task : Task) : Same rt (rt.runTask task) := by
  unfold Runtime.runTask
  split
  dsimp only
  split <;> exact ⟨rfl, rfl, rfl, rfl⟩

/-- A runtime that was destroyed has no tasks left for its workers. -/
theorem work (h : Remembers rt events) (hturn : rt.work? = some rt') :
    Remembers rt' (.work :: events) := by
  unfold Runtime.work? at hturn
  split at hturn
  · cases hturn
  · rename_i task rest hleft
    obtain rfl := Option.some.inj hturn
    have hsame := same_runTask { rt with tasks := rest } task
    refine h.quiet rfl rfl (fun _ => rfl) (hsame.createError.trans h.createError)
      (hsame.refuseAttach.trans h.refuseAttach) hsame.phase hsame.attached fun hdead hattending => ?_
    rw [(h.empty hdead hattending).2.2] at hleft
    cases hleft

/-- What is received was handed out already. -/
theorem receive (h : Remembers rt events) : Remembers { rt with outbox := [] } (.receive :: events) :=
  h.quiet rfl rfl (fun _ => rfl) h.createError h.refuseAttach rfl rfl h.empty

end Remembers

variable {origin rt : Runtime} {events : List LifeEvent}

/-- Whatever was done to it, a runtime remembers it. -/
theorem Lived.remembers (hnew : New origin) (hlived : Lived origin events rt) :
    Remembers rt events := by
  induction hlived with
  | new => exact .of_new hnew
  | launch _ thread args ih => exact ih.launch thread args
  | attach _ thread ih => exact ih.attach thread
  | destroy _ hmade ih => exact ih.destroy hmade
  | switch _ change ih => exact ih.switch change
  | call _ thread honThread ih => exact ih.call thread honThread
  | work _ hturn ih => exact ih.work hturn
  | receive _ ih => exact ih.receive

/-! ## The life cycle -/

namespace Remembers

variable {rt : Runtime} {events : List LifeEvent} (h : Remembers rt events)
include h

/-- The launcher itself refuses exactly the launches after the first that made a runtime. -/
theorem refused_iff (thread : ThreadId) (args : LaunchArgs) :
    (rt.tryLaunch thread args).1 = .error .created ↔ created events = true := by
  rw [← h.begun_iff, Runtime.tryLaunch]
  by_cases hbegun : rt.phase ≠ .idle
  · simp [hbegun]
  · -- whatever stands in the way now is told as another refusal
    rw [if_neg hbegun]
    cases checkLaunch args with
    | error code => simp [hbegun]
    | ok _ =>
      dsimp only
      split <;> simp [hbegun]

/-- The code for a runtime that is there can also be one that was armed. -/
theorem exists_iff (thread : ThreadId) (args : LaunchArgs) :
    (rt.launch thread args).1 = .error Status.alreadyExists ↔
      created events = true ∨ Acceptable args ∧ armed events = Status.alreadyExists := by
  rw [h.launch_eq_outcome, launchOutcome]
  cases created events with
  | true => simp
  | false =>
    have hversion : Status.version ≠ Status.alreadyExists := by decide
    have hinvalid : Status.invalid ≠ Status.alreadyExists := by decide
    have hok : Status.ok ≠ Status.alreadyExists := by decide
    simp only [Bool.false_eq_true, if_false, false_or]
    by_cases hacceptable : Acceptable args
    · rw [if_neg hacceptable.1, if_neg (not_not.mpr hacceptable)]
      by_cases hunset : armed events = Status.ok
      · simp [hunset, hok]
      · simp [hunset, hacceptable]
    · split_ifs <;> simp [hacceptable, hversion, hinvalid]

/-- A launch that fails does no more than to disarm. -/
theorem launch_failed {thread : ThreadId} {args : LaunchArgs} {code : Status}
    (hfailed : (rt.launch thread args).1 = .error code) : (rt.launch thread args).2 =
      if created events = false ∧ Acceptable args then (Switch.failCreate Status.ok).apply rt
      else rt := by
  obtain ⟨_, hsame⟩ | ⟨-, -, -, hmade⟩ := h.launch_cases thread args
  · exact congrArg Prod.snd hsame
  · rw [hmade] at hfailed
    cases hfailed

/-- A thread is admitted exactly while the runtime is up and attaching is not switched off. -/
theorem attach_iff (thread : ThreadId) :
    (rt.attach thread).1 = .ok () ↔ rt.phase = .running ∧ refused events = false := by
  by_cases hup : rt.phase = .running
  · cases hoff : refused events with
    | true => simp [h.attach_of_refused hup hoff]
    | false => simp [h.attach_of_admitted hup hoff, hup]
  · simp [attach_of_down hup, hup]

/-- A thread that joined before changes nothing by attaching again. -/
theorem attach_of_joined {thread : ThreadId} (hknown : joined thread events = true) :
    (rt.attach thread).2 = rt := by
  by_cases hup : rt.phase = .running
  · cases hoff : refused events with
    | true => rw [h.attach_of_refused hup hoff]
    | false =>
      rw [h.attach_of_admitted hup hoff]
      exact attachThread_of_mem ((h.attached thread).mpr ⟨(h.running_iff.mp hup).2, hknown⟩)
  · rw [attach_of_down hup]

end Remembers

/-- A launch that failed has left this behind. -/
structure RolledBack (rt : Runtime) (events : List LifeEvent) (args : LaunchArgs) (left : Runtime) :
    Prop where
  /-- It is as if the launch had not been made, or had only disarmed. -/
  state : left =
    if created events = false ∧ Acceptable args then (Switch.failCreate Status.ok).apply rt else rt
  shown : probe left = probe rt
  options : left.options = rt.options
  /-- As far as launches can tell, the code is used up exactly by acceptable arguments. -/
  later : ∀ thread again, (left.launch thread again).1 =
    launchOutcome (created events) (if Acceptable args then Status.ok else armed events) again

/-- A runtime that was destroyed. -/
structure Gone (rt : Runtime) (events : List LifeEvent) : Prop where
  destroyed : (probe rt).destroyed = true
  threads : (probe rt).attachedThreads = 0
  again : rt.destroy = rt
  empty : attended events = true → (probe rt).instances = 0 ∧ (probe rt).hasEntry = false

/-- What a launcher shows and does next, told from its history. -/
structure LifeCycle (rt : Runtime) (events : List LifeEvent) : Prop where
  once : events.countP LifeEvent.creates ≤ 1
  running_iff : rt.phase = .running ↔ created events = true ∧ ended events = false
  in_steps : ∀ thread args, launchInSteps rt thread args = rt.launch thread args
  launch : ∀ thread args,
    (rt.launch thread args).1 = launchOutcome (created events) (armed events) args
  /-- The launcher refuses by itself exactly when there is a runtime or was one. -/
  refused_iff : ∀ thread args,
    (rt.tryLaunch thread args).1 = .error .created ↔ created events = true
  /-- Any code can be armed, this one too. -/
  exists_iff : ∀ thread args, (rt.launch thread args).1 = .error Status.alreadyExists ↔
    created events = true ∨ Acceptable args ∧ armed events = Status.alreadyExists
  failed : ∀ thread args code, (rt.launch thread args).1 = .error code →
    RolledBack rt events args (rt.launch thread args).2
  attach_iff : ∀ thread, (rt.attach thread).1 = .ok () ↔ rt.phase = .running ∧ refused events = false
  /-- No thread is counted twice. -/
  distinct : rt.attached.Nodup
  attached : ∀ thread, thread ∈ rt.attached ↔ ended events = false ∧ joined thread events = true
  again : ∀ thread, joined thread events = true → (rt.attach thread).2 = rt
  gone : ended events = true → Gone rt events

namespace Remembers

variable {origin rt : Runtime} {events : List LifeEvent}

/-- The code counts only before there is a runtime. -/
theorem launchOutcome_disarmed (events : List LifeEvent) (args again : LaunchArgs) :
    launchOutcome (created events)
        (if created events = false ∧ Acceptable args then Status.ok else armed events) again =
      launchOutcome (created events) (if Acceptable args then Status.ok else armed events) again := by
  cases created events with
  | true => rfl
  | false => simp

/-- A launch that failed has rolled everything back but the armed code. -/
theorem rolledBack (h : Remembers rt events) {thread : ThreadId} {args : LaunchArgs} {code : Status}
    (hfailed : (rt.launch thread args).1 = .error code) :
    RolledBack rt events args (rt.launch thread args).2 where
  state := h.launch_failed hfailed
  shown := by
    rw [h.launch_failed hfailed]
    split <;> rfl
  options := by
    rw [h.launch_failed hfailed]
    split <;> rfl
  later other again := by
    have hnext := (h.launch thread args).launch_eq_outcome other again
    rw [hfailed] at hnext
    exact hnext.trans (launchOutcome_disarmed events args again)

/-- A runtime that was destroyed shows nothing any more, and a second end finds nothing to do. -/
theorem gone (h : Remembers rt events) (hgone : ended events = true) : Gone rt events where
  destroyed := decide_eq_true (h.destroyed_iff.mpr hgone)
  threads := congrArg List.length (h.attached_of_ended hgone)
  again := if_pos (h.destroyed_iff.mpr hgone)
  empty hattending := by
    obtain ⟨hinstances, hentry, -⟩ := h.empty hgone hattending
    exact ⟨congrArg List.length hinstances, congrArg Option.isSome hentry⟩

/-- **What a launcher shows and does next is told from its history**, and from nothing else. -/
theorem lifeCycle (h : Remembers rt events) : LifeCycle rt events where
  once := h.once
  running_iff := h.running_iff
  in_steps := launchInSteps_eq rt
  launch := h.launch_eq_outcome
  refused_iff := h.refused_iff
  exists_iff := h.exists_iff
  failed _ _ _ hfailed := h.rolledBack hfailed
  attach_iff := h.attach_iff
  distinct := h.distinct
  attached := h.attached
  again _ hknown := h.attach_of_joined hknown
  gone := h.gone

end Remembers

end GridBridge.Session
