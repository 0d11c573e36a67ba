import GridBridge.Proofs.Bridge.Attended
import GridBridge.Proofs.Refinement.Bridge
import GridBridge.Proofs.Session.Accounting

/-!
# From the start of a session

A runtime that is started holds no instance yet, and the plain machine has none either. **`Blank`**
says so of a runtime, and that no fault is injected; starting keeps it so. From there on every sequence
of operations through the bridge is one of the plain machine (**`bridge_refines_map_of_maps`**).
-/

namespace GridBridge.Refinement

open Protocol Seam Seam.Script Bridge Managed Relay Session

variable {α β : Type} {files : Files.FileSystem} {thread : ThreadId} {rt : Runtime} {s s₀ : Session}

/-! ## Blank runtimes -/

/-- Nothing was started or queued, and no fault is injected. -/
structure Blank (files : Files.FileSystem) (rt : Runtime) : Prop where
  faults : rt.faults = {}
  grid : rt.grid = {}
  tasks : rt.tasks = []
  outbox : rt.outbox = []
  files : rt.files = files

theorem ends_classNameAt (r : Ref) :
    Ends (Answering.classNameAt r) (fun _ rt' => rt' = rt) rt := by
  refine ends_bind (Answering.ends_resolve.mono ?_)
  rintro found _ ⟨rfl, _⟩
  split
  · exact ends_pure rfl
  · exact ends_bind (ends_get ends_throw)

namespace Blank

variable (h : Blank files rt)
include h

theorem ends_deleteRef (r : Ref) (kind : RefKind) :
    Ends (Answering.deleteRef r kind) (fun _ rt' => Blank files rt') rt := by
  refine ends_bind (ends_get ?_)
  split
  · exact ends_set { h with }
  · exact ends_throw
  · exact ends_throw

theorem ends_makeRef (object : Object) (kind : RefKind) :
    Ends (Answering.makeRef object kind) (fun _ rt' => Blank files rt') rt :=
  ends_bind (ends_get (ends_bind (ends_set (ends_pure { h with }))))

theorem wp_resolves {request : Call} (hresolves : Resolves request) :
    (ask request).wp (loopback thread) (fun _ rt' => Blank files rt') rt := by
  refine wp_answer ?_
  suffices Ends (Managed.answer thread request) (fun _ rt' => Blank files rt') rt from
    this.mono fun _ _ hblank _ => { hblank with outbox := rfl }
  -- the few requests that a resolution makes; none of them raises on a blank runtime
  cases request with
  | findClass name =>
    refine ends_bind (Answering.ends_requireClear.mono ?_)
    rintro _ _ rfl
    refine ends_bind (ends_get ?_)
    split
    · exact h.ends_makeRef _ _
    · exact ends_bind (ends_modify (ends_pure { h with }))
  | getMethodId cls spec =>
    refine ends_bind (Answering.ends_requireClear.mono ?_)
    rintro _ _ rfl
    refine ends_bind ((ends_classNameAt cls).mono ?_)
    rintro name _ rfl
    split
    · exact ends_pure h
    · exact ends_bind (ends_modify (ends_pure { h with }))
  | newGlobalRef obj =>
    refine ends_bind (ends_get ?_)
    rw [show rt.faults.globalRefFaults.take? = none by rw [h.faults]; rfl]
    refine ends_bind (Answering.ends_resolve.mono ?_)
    rintro found _ ⟨rfl, _⟩
    split
    · exact h.ends_makeRef _ _
    · exact ends_pure h
  | deleteLocalRef obj => exact h.ends_deleteRef obj .localRef
  | _ => exact hresolves.elim

theorem attachThread (thread : ThreadId) : Blank files (rt.attachThread thread) := by
  unfold Runtime.attachThread
  split
  · exact h
  · exact { h with }

theorem wp_launch (args : LaunchArgs) :
    (ask (.launch args)).wp (loopback thread) (fun _ rt' => Blank files rt') rt := by
  refine wp_answer (ends_bind (ends_get (ends_bind (ends_set (ends_pure fun _ => ?_)))))
  suffices Blank files (rt.launch thread args).2 from { this with outbox := rfl }
  rw [Runtime.launch_eq]
  split
  · exact h
  · split
    · exact h
    · split
      · rename_i harmed
        exact absurd (by rw [h.faults]; rfl) harmed
      · have hrunning : Blank files { rt with phase := .running, options := args.options } :=
          { h with }
        exact hrunning.attachThread thread

theorem wp_attach :
    (ask .attach).wp (loopback thread) (fun _ rt' => Blank files rt') rt := by
  refine wp_answer (ends_bind (ends_get (ends_bind (ends_set (ends_pure fun _ => ?_)))))
  suffices Blank files (rt.attach thread).2 from { this with outbox := rfl }
  unfold Runtime.attach
  split
  · exact h
  · split
    · exact h
    · exact h.attachThread thread

/-- A registration that succeeds makes the completion entry known. -/
theorem wp_registerNatives (cls : Ref) :
    (ask (.registerNatives cls [Context.completionMethod])).wp (loopback thread) (fun status rt' =>
      status = Status.ok → Blank files rt' ∧ rt'.entry = some .completion) rt := by
  refine wp_answer (ends_bind (Answering.ends_requireClear.mono ?_))
  rintro _ _ rfl
  refine ends_bind ((ends_classNameAt cls).mono ?_)
  rintro name _ rfl
  split
  · refine ends_bind (ends_modify (ends_pure ?_))
    have hfailed : Status.err ≠ Status.ok := by decide
    exact fun _ hok => absurd hok hfailed
  · refine ends_bind (ends_modify (ends_pure ?_))
    exact fun _ _ => ⟨{ h with outbox := rfl }, rfl⟩

end Blank

/-! ## Resolution -/

/-- Any number of such calls leaves a runtime blank. -/
theorem Blank.wp_searches {script : Script α} (h : Blank files rt)
    (hsearches : script.Makes Resolves fun _ => False) :
    script.wp (loopback thread) (fun _ rt' => Blank files rt') rt := by
  induction script generalizing rt with
  | done value => exact h
  | call request next ih =>
    show (ask request >>= next).wp _ _ _
    refine wp_bind.mpr (wp_mono (h.wp_resolves hsearches.1) fun reply _ hblank => ?_)
    exact ih reply hblank (hsearches.2 reply)
  | report fault next ih => exact hsearches.1.elim

theorem Blank.wp_resolve (h : Blank files rt) :
    Descriptors.resolve.wp (loopback thread)
      (fun outcome rt' => outcome.isOk = true → Blank files rt') rt := by
  refine wp_bind.mpr (wp_mono (h.wp_searches (searches_resolveAll {})) ?_)
  rintro ⟨missing | d, progress⟩ rt' hblank
  · exact wp_bind.mpr (wp_mono (wp_any _) fun _ _ _ => nofun)
  · exact fun _ => hblank

/-! ## Starting -/

theorem Blank.wp_start (h : Blank files rt) (args : LaunchArgs) :
    Operation.wp (loopback thread) (Context.start args)
      (fun _ rt' => Blank files rt' ∧ rt'.entry = some .completion) (fun _ _ => True) rt := by
  unfold Context.start
  refine Operation.wp_lift_bind.mpr (wp_mono (h.wp_launch args) ?_)
  rintro (code | _) rt₁ h₁
  · exact trivial
  refine Operation.wp_lift_bind.mpr (wp_mono h₁.wp_attach ?_)
  rintro (code | _) rt₂ h₂
  -- a failed start promises nothing, so what its clean-up does is not looked at
  · exact Operation.wp_lift_bind.mpr (wp_mono (wp_any _) fun _ _ _ => trivial)
  refine Operation.wp_lift_bind.mpr (wp_mono h₂.wp_resolve ?_)
  rintro (failure | d) rt₃ h₃
  · exact Operation.wp_lift_bind.mpr (wp_mono (wp_any _) fun _ _ _ => trivial)
  refine Operation.wp_lift_bind.mpr (wp_mono ((h₃ rfl).wp_registerNatives d.interopUtils) ?_)
  intro status rt₄ h₄
  split
  · rename_i hok
    exact h₄ hok
  · refine Operation.wp_lift_bind.mpr (wp_mono (wp_any _) fun _ _ _ => ?_)
    exact Operation.wp_lift_bind.mpr (wp_mono (wp_any _) fun _ _ _ => trivial)

/-- A session that was started is blank, and its runtime knows the completion entry. -/
theorem partly_startOn (h : Blank files s.runtime) (hs : Untapped s) (hnone : s.context = none)
    (args : LaunchArgs) (hasErrorCallback : Bool) :
    Partly (startOn thread args hasErrorCallback) (fun outcome s' => outcome = .ok () →
      (Blank files s'.runtime ∧ s'.runtime.entry = some .completion) ∧
        s'.relay.nextCall = s.relay.nextCall) s := by
  unfold startOn
  refine partly_bind (fun outcome => ?_) ((partly_perform (h.wp_start args) hs).mono ?_)
  · cases outcome with
    | ok d =>
      exact grows_bind grows_dropContextOn fun _ =>
        grows_bind (grows_modify fun _ => rfl) fun _ => grows_pure
    | error e => exact grows_pure
  · rintro (e | d) s' ⟨hmet, hbeside⟩
    · exact partly_pure nofun
    · refine partly_bind (fun _ => grows_bind (grows_modify fun _ => rfl) fun _ => grows_pure) ?_
      -- there is no old context to be dropped
      refine partly_get ?_
      rw [hbeside.steady.context, hnone]
      refine partly_pure (partly_bind (fun _ => grows_pure) (partly_modify (partly_pure ?_)))
      exact fun _ => ⟨hmet, hbeside.next⟩

/-- The plain machine at its beginning. -/
theorem matches_nothing (next : CallId) : Matches 0 {} [] [] {} { next } where
  separate := Grid.separate_empty
  running := rfl
  passes := nofun
  held := rfl
  instances := .nil
  caches := .nil
  queue := .nil

/-- A session that was started stands for the plain machine at its beginning. -/
theorem simulates_started {args : LaunchArgs} {hasErrorCallback : Bool} (hfresh : World.Fresh s)
    (hblank : Blank files s.runtime)
    (hstarted : (startOn thread args hasErrorCallback).run.run s = (.ok (.ok ()), s₀))
    (hinRange : InRange s₀) : Simulates files s₀ {} { next := s.relay.nextCall } := by
  have hbalanced := (World.settled_of_fresh hfresh).balanced
  have hleaves : Leaves (startOn thread args hasErrorCallback) InRange s := by
    unfold Leaves
    rw [hstarted]
    exact hinRange
  obtain ⟨outcome, s', hrun, hbegan⟩ := hbalanced.within_startOn hleaves
  -- what was started is balanced, and stands on an empty desk
  cases hstarted.symm.trans hrun
  obtain ⟨⟨hblank', hentry⟩, hnext⟩ :=
    partly_startOn hblank hbalanced.untapped hfresh.context args hasErrorCallback _ _ hstarted
      hinRange rfl
  obtain ⟨ctx, hcontext, _⟩ := hbegan.counted
  refine ⟨0, {}, [], [], ⟨hbegan.balanced, by rw [hcontext]; rfl, fun other => ?_⟩,
    matches_nothing _, hnext⟩
  exact {
    sound := hbegan.balanced.sound
    phase := hbegan.phase
    faults := hblank'.faults
    entry := hentry
    files := hblank'.files
    grid := hblank'.grid
    tasks := hblank'.tasks
    outbox := hblank'.outbox
    pending := by rw [hbegan.balanced.clear]; rfl
    owned := nofun
    locals := nofun
    distinct := .nil }

/-! ## Refinement -/

/-- What a session holds under a key is what the plain machine holds. -/
theorem Simulates.entry {handles : Handles} {p : Plain} (h : Simulates files s handles p)
    (a : Address) (key : Int32) :
    entry a.instanceName a.cacheName key s = (p.contents a)[key]? := by
  obtain ⟨kept, grid, tasks, owned, h⟩ := h
  unfold Session.entry Grid.entry?
  rw [(h.ready.shows mainThread).grid, ← h.data.held]
  show (grid.storeAt? a).bind _ = _
  unfold Grid.held
  cases grid.storeAt? a with
  | none => rfl
  | some store => rfl

/-- **The bridge refines a plain map of maps.** From the start of a session on, every sequence of
operations through the bridge ends, gives the replies of the plain machine and leaves in each cache
what the plain machine has there. The one bound is that of the references, whose numbers must not
come round on the way. -/
theorem bridge_refines_map_of_maps {args : LaunchArgs} {hasErrorCallback : Bool}
    (hfresh : World.Fresh s) (hblank : Blank files s.runtime)
    (hstarted : (startOn thread args hasErrorCallback).run.run s = (.ok (.ok ()), s₀))
    (ops : List Op) :
    Within (Handles.playAll ops {}) (fun result s' =>
      result.1 = (Plain.stepAll files ops { next := s.relay.nextCall }).1 ∧
        ∀ a key, entry a.instanceName a.cacheName key s' =
          ((Plain.stepAll files ops { next := s.relay.nextCall }).2.contents a)[key]?) s₀ := by
  intro hleaves
  have hinRange : InRange s₀ := (grows_playAll ops {}).inRange hleaves
  have hsimulates := simulates_started hfresh hblank hstarted hinRange
  refine (hsimulates.run ops hleaves).mono ?_
  exact fun result s' ⟨hreplies, hsimulates'⟩ => ⟨hreplies, fun a key => hsimulates'.entry a key⟩

/-! ## A visit -/

/-- The session a step leaves. It is named so that a run can be spoken of without being carried out. -/
def leftBy (x : Step α) (s : Session) : Session := (x.run.run s).2

theorem run_leftBy {x : Step α} {outcome : Except Fatal α} (h : (x.run.run s).1 = outcome) :
    x.run.run s = (outcome, leftBy x s) := Prod.ext h rfl

/-- A session of which the runtime was started. -/
def started : Session := leftBy (startOn 0 Context.plainArgs false) World.unstarted

/-- Two handles of one cache, and two updates that are carried out in the other order. -/
def visit : List Op :=
  [.start 0 "/c" "grid", .cache 0 0 none, .put 0 0 7 9, .issue 0 0 (.put 8 1) 0 (.note 0),
    .issue 0 0 (.remove 7) 0 (.note 1), .execute 1, .size 0 0, .execute 0, .find 0 "grid",
    .cache 0 0 none, .remove 0 0 8, .size 0 1]

theorem visit_refines :
    World.Fresh World.unstarted ∧
      Blank World.unstarted.runtime.files World.unstarted.runtime ∧
      (startOn 0 Context.plainArgs false).run.run World.unstarted = (.ok (.ok ()), started) ∧
      Leaves (Handles.playAll visit {}) InRange started ∧
      Yields (Handles.playAll visit {}) (fun result _ => result.1 =
        [.opened, .opened, .put 1, .issued 1, .issued 2, .executed [(2, ⟨1, 1⟩)], .size 0,
          .executed [(1, ⟨1, 1⟩)], .opened, .opened, .removed true, .size 0]) started := by
  have hfresh : World.Fresh World.unstarted := ⟨rfl, rfl, rfl, rfl, rfl, rfl⟩
  have hblank : Blank World.unstarted.runtime.files World.unstarted.runtime :=
    ⟨rfl, rfl, rfl, rfl, rfl⟩
  -- the start itself is evaluated, and so is the room that the visit needs
  have houtcome : ((startOn 0 Context.plainArgs false).run.run World.unstarted).1 = .ok (.ok ()) := by
    decide +kernel
  have hrun : (startOn 0 Context.plainArgs false).run.run World.unstarted = (.ok (.ok ()), started) :=
    run_leftBy houtcome
  have hroom : Leaves (Handles.playAll visit {}) InRange started := by
    unfold Leaves InRange
    decide +kernel
  have hreplies : (Plain.stepAll World.unstarted.runtime.files visit {}).1 =
      [.opened, .opened, .put 1, .issued 1, .issued 2, .executed [(2, ⟨1, 1⟩)], .size 0,
        .executed [(1, ⟨1, 1⟩)], .opened, .opened, .removed true, .size 0] := by decide +kernel
  refine ⟨hfresh, hblank, hrun, hroom, ?_⟩
  refine (bridge_refines_map_of_maps hfresh hblank hrun visit hroom).mono ?_
  exact fun result _ hended => hended.1.trans hreplies

/-- A name with a NUL in it is not empty, and still no cache is found under it. -/
theorem nul_in_name_is_refused :
    "a\x00b" ≠ "" ∧
      ((Handles.playAll [.start 0 "/c" "grid", .cache 0 0 (some "a\x00b")] {}).run.run started).1.map
        (·.1) = .ok [.opened, .refused] := by
  decide +kernel

end GridBridge.Refinement
