import GridBridge.CommandLine
import GridBridge.Proofs.Outcome
import GridBridge.Proofs.Config.Launch

/-!
# Command line: what becomes of the options

A run on the loopback runtime can do without a classpath. The launch it falls back on has the quiet
flag and nothing else: the further options of the settings stand in a launch only next to a
classpath, and only there does one that is none end the run (**`options_reach_with_classpath`**).
-/

namespace GridBridge.CommandLine

open Protocol Seam Session Config Files Managed Bridge

/-! ## A launch that is refused -/

variable {rt : Runtime} {launch : LaunchArgs} {code : Status}

theorem launch_of_refused (hidle : rt.phase = .idle) (hchecked : checkLaunch launch = .error code)
    (thread : ThreadId) : rt.launch thread launch = (.error code, rt) := by
  rw [Runtime.launch_eq, if_neg (not_not.mpr hidle), hchecked]

/-- The error a refused launch is reported with. -/
def createFailed (code : Status) : BridgeError :=
  .embeddingStart code s!"failed to create the managed runtime (status {code.toInt})" none

/-- A refusal changes nothing, and nothing was sent that would have to be taken up. -/
theorem run_answer_launch (hrefused : rt.launch mainThread launch = (.error code, rt))
    (hquiet : rt.outbox = []) :
    (Session.answer mainThread (.launch launch)).run.run { runtime := rt } =
      (.ok (.error code), { runtime := rt }) := by
  -- a refused launch queues nothing, so there is nothing to receive after it
  have hdirect : (answerDirect mainThread (.launch launch)).run.run { runtime := rt } =
      (.ok (.error code), { runtime := rt }) := by
    have hanswered : (Managed.answer mainThread (.launch launch)).run.run rt =
        (.ok (rt.launch mainThread launch).1, (rt.launch mainThread launch).2) := rfl
    unfold answerDirect
    rw [run_get_bind]
    dsimp only
    rw [hanswered, hrefused]
    unfold receiveAll
    dsimp only
    rw [hquiet]
    cases rt
    cases hquiet
    rfl
  have htapped : (answerTapped mainThread (.launch launch)).run.run { runtime := rt } =
      (.ok { reply := .error code }, { runtime := rt }) := by
    show (answerDirect mainThread (.launch launch) >>= fun reply =>
      pure { reply : Answered (.launch launch) }).run.run { runtime := rt } = _
    rw [run_bind_of_ok hdirect]
    rfl
  unfold Session.answer
  rw [run_bind_of_ok htapped]
  rfl

theorem run_start_refused (hrefused : rt.launch mainThread launch = (.error code, rt))
    (hquiet : rt.outbox = []) (callback : Bool) :
    (start launch callback).run.run.run { runtime := rt } =
      (.ok (.error (.failed (createFailed code))), { runtime := rt }) := by
  -- the start ends at its first call, before a thread is attached
  have hperformed : (perform mainThread (Context.start launch)).run.run { runtime := rt } =
      (.ok (.error (createFailed code)), { runtime := rt }) := by
    show (Session.answer mainThread (.launch launch) >>= _).run.run _ = _
    rw [run_bind_of_ok (run_answer_launch hrefused hquiet)]
    rfl
  have hstarted : (startOn mainThread launch callback).run.run { runtime := rt } =
      (.ok (.error (createFailed code)), { runtime := rt }) := by
    unfold startOn
    rw [run_bind_of_ok hperformed]
    rfl
  have hlifted : (Except.ok <$> startOn mainThread launch callback :
      Step (Except Refusal (Except BridgeError Unit))).run.run { runtime := rt } =
      (.ok (.ok (.error (createFailed code))), { runtime := rt }) := by
    show (startOn mainThread launch callback >>= fun done => pure (Except.ok done)).run.run _ = _
    rw [run_bind_of_ok hstarted]
    rfl
  show ((Except.ok <$> startOn mainThread launch callback :
      Step (Except Refusal (Except BridgeError Unit))) >>= _).run.run _ = _
  rw [run_bind_of_ok hlifted]
  rfl

/-- The demonstration ends where it could not start, before it printed a line. -/
theorem run_demonstrate_refused (hrefused : rt.launch mainThread launch = (.error code, rt))
    (hquiet : rt.outbox = []) (configPath instanceName cacheName : String) :
    ((demonstrate launch configPath instanceName cacheName).run.run []).run.run
        { runtime := rt } =
      (.ok (.error (.failed (createFailed code)), []), { runtime := rt }) := by
  have hperformed : ((Demo.perform (start launch false)).run.run []).run.run { runtime := rt } =
      (.ok (.error (.failed (createFailed code)), []), { runtime := rt }) := by
    show ((start launch false).run >>= fun done => pure (done, [])).run.run _ = _
    rw [run_bind_of_ok (run_start_refused hrefused hquiet false)]
    rfl
  unfold demonstrate
  rw [ExceptT.run_bind, StateT.run_bind, run_bind_of_ok hperformed]
  rfl

/-! ## The launch of a run -/

variable {s : Settings} {fs : FileSystem}

theorem runLoopback_refused {path : String} (hconfigured : instanceConfig s = .ok path)
    (hchecked : checkLaunch (loopbackLaunch s fs) = .error code) (cacheName : String) :
    runLoopback s fs cacheName = .failed 1 (errorLine (createFailed code).message) := by
  have hrefused : ({ files := fs } : Runtime).launch mainThread (loopbackLaunch s fs) =
      (.error code, { files := fs }) := launch_of_refused rfl hchecked mainThread
  unfold runLoopback
  rw [hconfigured]
  dsimp only
  rw [run_demonstrate_refused hrefused rfl]
  rfl

/-- With a classpath the launch is the one the settings ask for. -/
theorem loopbackLaunch_of_classpath (hlaunched : s.launchArgs fs = .ok launch) :
    ∃ joined, loopbackLaunch s fs = Settings.launchWith
      (Settings.classpathOption joined :: Settings.quietOption s.quiet :: s.options) := by
  have hargs : loopbackLaunch s fs = launch := by
    unfold loopbackLaunch
    rw [hlaunched]
  cases hresolved : s.resolveClasspath fs with
  | error e =>
    unfold Settings.launchArgs at hlaunched
    rw [hresolved] at hlaunched
    cases hlaunched
  | ok entries =>
    obtain ⟨-, rfl⟩ := (Settings.launchArgs_eq_ok_iff hresolved).mp hlaunched
    exact ⟨_, hargs⟩

theorem loopbackLaunch_of_none {e : ConfigError} (hfailed : s.launchArgs fs = .error e) :
    loopbackLaunch s fs = Settings.launchWith [Settings.quietOption s.quiet] := by
  unfold loopbackLaunch
  rw [hfailed]

/-- Whether there is a classpath has nothing to do with the options. -/
theorem launchArgs_error_of_options {e : ConfigError} (hfailed : s.launchArgs fs = .error e)
    (options : List String) : ({ s with options } : Settings).launchArgs fs = .error e := by
  -- the options are added to what resolving gives, and are not read before that
  have hresolved : ({ s with options } : Settings).resolveClasspath fs = s.resolveClasspath fs := rfl
  unfold Settings.launchArgs at hfailed ⊢
  rw [hresolved]
  cases hfound : s.resolveClasspath fs with
  | error cause =>
    rw [hfound] at hfailed
    exact hfailed
  | ok entries =>
    rw [hfound] at hfailed
    simp only [bind, Except.bind] at hfailed ⊢
    cases hjoined : Settings.joinEntries entries with
    | error cause =>
      rw [hjoined] at hfailed
      exact hfailed
    | ok path =>
      rw [hjoined] at hfailed
      cases hfailed

/-- **Options reach the runtime with a classpath only.** If a classpath can be handed over, the
launch of a run ends with the quiet flag and the further options, and one that is none makes the run
fail as the launcher refused it. Otherwise there is only the quiet flag: the launcher takes it, and
the run is the same whatever the further options are. -/
theorem options_reach_with_classpath (s : Settings) (fs : FileSystem) :
    (Settings.quietOption s.quiet :: s.options <:+ (loopbackLaunch s fs).options ↔
      (∃ launch, s.launchArgs fs = .ok launch) ∨ s.options = []) ∧
    (∀ launch path cacheName, s.launchArgs fs = .ok launch → instanceConfig s = .ok path →
      (∃ option ∈ s.options, option.toList.head? ≠ some '-') →
        runLoopback s fs cacheName =
          .failed 1 (errorLine (createFailed Status.invalid).message)) ∧
    ∀ e, s.launchArgs fs = .error e →
      (loopbackLaunch s fs).options = [Settings.quietOption s.quiet] ∧
      (∀ (rt : Runtime) thread, rt.phase = .idle → rt.faults.createError = Status.ok →
        (rt.launch thread (loopbackLaunch s fs)).1 = .ok ()) ∧
      ∀ options cacheName,
        runLoopback { s with options } fs cacheName = runLoopback s fs cacheName := by
  refine ⟨?_, ?_, ?_⟩
  -- with a class path the options stand behind it; without one only the quiet flag is left
  · cases hlaunched : s.launchArgs fs with
    | ok launch =>
      obtain ⟨joined, hargs⟩ := loopbackLaunch_of_classpath hlaunched
      rw [hargs]
      exact iff_of_true (List.suffix_cons _ _) (.inl ⟨launch, rfl⟩)
    | error e =>
      rw [loopbackLaunch_of_none hlaunched]
      constructor
      -- of a list of one entry only that list and the empty one are ends
      · intro hends
        obtain hsame | hinside := List.suffix_cons_iff.mp hends
        · exact .inr (List.cons.inj hsame).2
        · cases List.suffix_nil.mp hinside
      · rintro (⟨launch, hother⟩ | hnone)
        · cases hother
        · rw [hnone]
          exact List.suffix_refl _
  · rintro launch path cacheName hlaunched hconfigured ⟨option, hknown, hbad⟩
    obtain ⟨joined, hargs⟩ := loopbackLaunch_of_classpath hlaunched
    -- the launcher looks at every option, so a bad one anywhere refuses the launch
    have hrefused : checkLaunch (loopbackLaunch s fs) = .error Status.invalid := by
      rw [hargs, Settings.checkLaunch_asked, if_neg]
      intro hall
      have heach := List.all_eq_true.mp hall option hknown
      exact hbad (by simpa [Settings.isOption] using heach)
    exact runLoopback_refused hconfigured hrefused cacheName
  · intro e hfailed
    have hargs := loopbackLaunch_of_none hfailed
    refine ⟨congrArg LaunchArgs.options hargs, fun rt thread hidle hunarmed => ?_,
      fun options cacheName => ?_⟩
    · rw [(Settings.launch_of_idle hidle hunarmed thread _).1, hargs, Settings.checkLaunch_launchWith,
        if_pos]
      simp [Settings.isOption_quietOption]
    -- neither side reads the options, since resolving fails before they are looked at
    · have hsame : loopbackLaunch { s with options } fs = loopbackLaunch s fs :=
        (loopbackLaunch_of_none (launchArgs_error_of_options hfailed options)).trans hargs.symm
      unfold runLoopback
      rw [hsame]
      rfl

/-- Settings with an instance to start, and one option that is none. -/
def misspelt (classpath : List Path) : Settings where
  classpath := classpath
  options := ["Xmx1g"]
  inst := { configPath := some (.ofString "i.xml") }

/-- With a classpath, the option is seen and refused. -/
theorem misspelt_option_refused :
    runLoopback (misspelt [.ofString "a"]) {} "cache1" =
      .failed 1 (errorLine (createFailed Status.invalid).message) :=
  (options_reach_with_classpath (misspelt [.ofString "a"]) {}).2.1
    (Settings.launchWith ["-Djava.class.path=a", "-DIGNITE_QUIET=false", "Xmx1g"]) "i.xml" "cache1"
    (by decide +kernel) (by decide +kernel) ⟨"Xmx1g", by decide, by decide⟩

/-- Without one it is left out: the launch does not end with it, and the run comes to its end. -/
theorem misspelt_option_left_out :
    let files : FileSystem := { nodes := [([nameOfString "i.xml"], .file [])] }
    instanceConfig (misspelt []) = .ok "i.xml" ∧
      ¬ (Settings.quietOption (misspelt []).quiet :: (misspelt []).options <:+
        (loopbackLaunch (misspelt []) files).options) ∧
      (runLoopback (misspelt []) files "cache1").code = 0 := by
  decide +kernel

end GridBridge.CommandLine
