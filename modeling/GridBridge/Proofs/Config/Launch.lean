import GridBridge.Config.Launch
import GridBridge.Managed.Launch
import GridBridge.Proofs.Text.Utf8

/-!
# Config: from settings to a launch

The launch arguments hold the classpath as one text, and splitting that text gives the entries back
(`splitOn_classpath`): no entry holds the separator, and there is always an entry. Two checks look at
the options, that of the settings and that of the launcher; **`launch_faithful`** says that they come to
the same end, and what is launched.
-/

namespace GridBridge.Config.Settings

open Files Text Seam Protocol Managed

/-! ## One text for a classpath -/

/-- The character that stands between the entries of a classpath. -/
theorem entrySeparator_eq : Char.ofNat entrySeparator.toNat = ':' := by decide

theorem toList_lossy_append (front behind : List UInt8) :
    (lossy (front ++ entrySeparator :: behind)).toList =
      (lossy front).toList ++ ':' :: (lossy behind).toList := by
  have hascii : entrySeparator.toNat < 0x80 := by decide
  simp [lossy, pieces_append hascii, entrySeparator_eq]

theorem mem_lossy {bytes : List UInt8} (h : ':' ∈ (lossy bytes).toList) : entrySeparator ∈ bytes := by
  have hascii : entrySeparator.toNat < 0x80 := by decide
  simp only [lossy, String.toList_ofList, List.mem_map] at h
  obtain ⟨piece, hinside, hshown⟩ := h
  cases piece with
  | char c =>
    obtain rfl : c = ':' := hshown
    exact mem_pieces hascii hinside
  | broken bad =>
    have hother : '\uFFFD' = ':' := hshown
    exact absurd hother (by decide)

/-- What a joined classpath reads is what its entries read, with separators between them. -/
theorem toList_lossy_join (entries : List (List UInt8)) (hsomeEntry : entries ≠ []) :
    (lossy (joinWithByte entrySeparator entries)).toList =
      [':'].intercalate (entries.map fun entry => (lossy entry).toList) := by
  induction entries with
  | nil => exact absurd rfl hsomeEntry
  | cons first rest ih =>
    cases rest with
    | nil => simp [joinWithByte]
    | cons second rest =>
      rw [joinWithByte, toList_lossy_append, ih (List.cons_ne_nil second rest)]
      · simp [List.intercalate_cons_cons]
      · nofun

theorem splitOn_classpath {entries : List Path} (hsomeEntry : entries ≠ [])
    (hplain : ∀ p ∈ entries, entrySeparator ∉ p.bytes) :
    (lossy (joinWithByte entrySeparator (entries.map (·.bytes)))).toList.splitOn ':' =
      entries.map (·.toStringLossy.toList) := by
  rw [toList_lossy_join _ (by simpa using hsomeEntry), List.splitOn_intercalate]
  · simp [Path.toStringLossy]
  · intro text hinside hheld
    rw [List.map_map, List.mem_map] at hinside
    obtain ⟨p, hknown, rfl⟩ := hinside
    exact hplain p hknown (mem_lossy hheld)
  · simpa using hsomeEntry

/-- A path that is text reads as that text. -/
theorem toStringLossy_ofString (text : String) : (Path.ofString text).toStringLossy = text :=
  lossy_toUTF8 text

theorem joinEntries_eq_ok_iff (entries : List Path) (joined : Path) :
    joinEntries entries = .ok joined ↔
      (∀ p ∈ entries, entrySeparator ∉ p.bytes) ∧
        joined = ⟨joinWithByte entrySeparator (entries.map (·.bytes))⟩ := by
  unfold joinEntries
  split
  · rename_i hheld
    obtain ⟨p, hknown, hinside⟩ := List.any_eq_true.mp hheld
    constructor
    · nofun
    · rintro ⟨hplain, -⟩
      exact absurd (List.contains_iff_mem.mp hinside) (hplain p hknown)
  · rename_i hnone
    have hplain : ∀ p ∈ entries, entrySeparator ∉ p.bytes := by
      intro p hknown hinside
      exact hnone (List.any_eq_true.mpr ⟨p, hknown, List.contains_iff_mem.mpr hinside⟩)
    rw [Except.ok.injEq, eq_comm, and_iff_right hplain]

/-! ## The launch -/

variable {s : Settings} {fs : FileSystem} {entries : List Path} {args : LaunchArgs}

/-- There is always a class directory at least. -/
theorem ne_nil_of_resolveClasspath (hresolved : s.resolveClasspath fs = .ok entries) :
    entries ≠ [] := by
  unfold resolveClasspath at hresolved
  split at hresolved
  · cases hresolved
    simp_all
  · split at hresolved
    · cases hresolved
      simp [installedClasspath, classDirectories]
    · cases hresolved

theorem launchArgs_eq_ok_iff (hresolved : s.resolveClasspath fs = .ok entries) :
    s.launchArgs fs = .ok args ↔
      (∀ p ∈ entries, entrySeparator ∉ p.bytes) ∧
        args = launchWith
          (classpathOption ⟨joinWithByte entrySeparator (entries.map (·.bytes))⟩ ::
            quietOption s.quiet :: s.options) := by
  have hjoins := joinEntries_eq_ok_iff entries
  unfold launchArgs
  rw [hresolved]
  cases hjoined : joinEntries entries with
  -- joining fails exactly if one entry has the separator in it
  | error cause =>
    have hheld : ¬ ∀ p ∈ entries, entrySeparator ∉ p.bytes := fun hplain => by
      rw [(hjoins _).mpr ⟨hplain, rfl⟩] at hjoined
      cases hjoined
    simp only [bind, Except.bind, hjoined, hheld, false_and]
    exact ⟨nofun, False.elim⟩
  | ok path =>
    obtain ⟨hplain, rfl⟩ := (hjoins path).mp hjoined
    simp only [bind, Except.bind, hjoined, pure, Except.pure, Except.ok.injEq, and_iff_right hplain]
    exact eq_comm

/-- The launcher looks at every option, and so it sees whether one is none. -/
theorem checkLaunch_launchWith (options : List String) :
    checkLaunch (launchWith options) =
      if options.all isOption then .ok () else .error Status.invalid := by
  have hknown : ¬ (launchWith options).version < runtimeVersion := Int32.lt_irrefl
  unfold checkLaunch
  rw [if_neg hknown]
  rfl

/-- What starts like an option is one. -/
theorem isOption_append {front : String} (h : isOption front = true) (rest : String) :
    isOption (front ++ rest) = true := by
  unfold isOption at h ⊢
  rw [String.toList_append]
  cases hchars : front.toList with
  | nil =>
    rw [hchars] at h
    cases h
  | cons first more =>
    rw [hchars] at h
    exact h

theorem isOption_classpathOption (joined : Path) : isOption (classpathOption joined) = true :=
  isOption_append (by decide) _

theorem isOption_quietOption (quiet : Bool) : isOption (quietOption quiet) = true :=
  isOption_append (by decide) _

/-- A launch starts with options, so that only the further ones matter. -/
theorem checkLaunch_asked (s : Settings) (joined : Path) :
    checkLaunch (launchWith (classpathOption joined :: quietOption s.quiet :: s.options)) =
      if s.options.all isOption then .ok () else .error Status.invalid := by
  rw [checkLaunch_launchWith, List.all_cons, List.all_cons, isOption_classpathOption,
    isOption_quietOption, Bool.true_and, Bool.true_and]

/-- A launcher that was not used yet and has no fault armed does as its check says. -/
theorem launch_of_idle {rt : Runtime} (hidle : rt.phase = .idle)
    (hunarmed : rt.faults.createError = Status.ok) (thread : ThreadId) (args : LaunchArgs) :
    (rt.launch thread args).1 = checkLaunch args ∧
      (checkLaunch args = .ok () → (rt.launch thread args).2.options = args.options) := by
  rw [Runtime.launch_eq, if_neg (not_not.mpr hidle)]
  cases checkLaunch args with
  | error code => exact ⟨rfl, nofun⟩
  | ok done =>
    dsimp only
    rw [if_neg (not_not.mpr hunarmed)]
    refine ⟨rfl, fun _ => ?_⟩
    dsimp only
    unfold Runtime.attachThread
    split <;> rfl

/-- Settings with a name and a classpath hold if all their options are options. -/
theorem validate_eq_ok_iff (hnamed : s.inst.name ≠ "")
    (hresolved : s.resolveClasspath fs = .ok entries) :
    s.validate = .ok () ↔ ∀ option ∈ s.options, isOption option = true := by
  -- a classpath was resolved, so it was stated or there is a home
  have hsourced : ¬ (s.classpath.isEmpty && s.home.isNone) = true := by
    intro hnowhere
    obtain ⟨hunstated, habsent⟩ := Bool.and_eq_true_iff.mp hnowhere
    unfold resolveClasspath at hresolved
    rw [hunstated, Option.isNone_iff_eq_none.mp habsent] at hresolved
    cases hresolved
  have hname : ¬ s.inst.name.isEmpty = true := by simpa using hnamed
  unfold validate problem?
  rw [if_neg hname, if_neg hsourced]
  cases hfound : s.options.find? fun option => !isOption option with
  | none =>
    simpa using hfound
  | some option =>
    have hbad := List.find?_some hfound
    refine ⟨nofun, fun hall => ?_⟩
    rw [hall option (List.mem_of_find?_eq_some hfound)] at hbad
    cases hbad

/-- **A launch as the settings have it.** A classpath can be handed over exactly if no entry holds the
separator. It is one option then, which splits into the entries again, and behind it come the quiet
flag and the further options as they are. A fresh launcher takes these arguments exactly if every
further option is one, which is also what the validation of settings with a name comes to. -/
theorem launch_faithful (s : Settings) (fs : FileSystem) (entries : List Path)
    (hresolved : s.resolveClasspath fs = .ok entries) :
    ((∃ args, s.launchArgs fs = .ok args) ↔ ∀ p ∈ entries, entrySeparator ∉ p.bytes) ∧
    ∀ args, s.launchArgs fs = .ok args →
      (∃ joined : String,
        args.options = ("-Djava.class.path=" ++ joined) :: quietOption s.quiet :: s.options ∧
        joined.toList.splitOn ':' = entries.map (·.toStringLossy.toList) ∧
        ∀ texts : List String, entries = texts.map Path.ofString →
          joined.toList.splitOn ':' = texts.map String.toList) ∧
      ∀ (rt : Runtime) (thread : ThreadId),
        rt.phase = .idle → rt.faults.createError = Status.ok →
        ((rt.launch thread args).1 = .ok () ↔
          ∀ option ∈ s.options, option.toList.head? = some '-') ∧
        (s.inst.name ≠ "" → (s.validate = .ok () ↔ (rt.launch thread args).1 = .ok ())) ∧
        (∀ code, (rt.launch thread args).1 = .error code → code = Status.invalid) ∧
        ((rt.launch thread args).1 = .ok () → (rt.launch thread args).2.options = args.options) := by
  constructor
  · constructor
    · rintro ⟨args, hlaunched⟩
      exact ((launchArgs_eq_ok_iff hresolved).mp hlaunched).1
    · exact fun hplain => ⟨_, (launchArgs_eq_ok_iff hresolved).mpr ⟨hplain, rfl⟩⟩
  intro args hlaunched
  obtain ⟨hplain, hasked⟩ := (launchArgs_eq_ok_iff hresolved).mp hlaunched
  constructor
  -- no entry has a separator, so splitting finds the entries again
  · have hsplit := splitOn_classpath (ne_nil_of_resolveClasspath hresolved) hplain
    refine ⟨_, congrArg LaunchArgs.options hasked, hsplit, ?_⟩
    rintro texts rfl
    exact hsplit.trans (by simp [toStringLossy_ofString])
  intro rt thread hidle hunarmed
  -- the options of the bridge itself are fine, so only those of the user decide
  have haccepted : checkLaunch args =
      if s.options.all isOption then .ok () else .error Status.invalid := by
    rw [hasked, checkLaunch_asked]
  obtain ⟨hchecked, hrecorded⟩ := launch_of_idle hidle hunarmed thread args
  rw [haccepted] at hchecked hrecorded
  rw [hchecked]
  cases hall : s.options.all isOption with
  | true =>
    have heach := List.all_eq_true.mp hall
    refine ⟨iff_of_true rfl fun option hknown => by simpa [isOption] using heach option hknown,
      fun hnamed => iff_of_true ((validate_eq_ok_iff hnamed hresolved).mpr heach) rfl, nofun, ?_⟩
    exact fun _ => hrecorded (if_pos hall)
  | false =>
    have hsomeBad : ¬ ∀ option ∈ s.options, isOption option = true := by
      rw [← List.all_eq_true, hall]
      nofun
    refine ⟨iff_of_false nofun fun heach => hsomeBad fun option hknown => ?_,
      fun hnamed => iff_of_false ?_ nofun, ?_, nofun⟩
    · simpa [isOption] using heach option hknown
    · exact fun hvalid => hsomeBad ((validate_eq_ok_iff hnamed hresolved).mp hvalid)
    · rintro code hfailed
      exact (Except.error.inj hfailed).symm

/-- Three entries, one of them empty, and an option that is none. -/
theorem launch_faithful_refused :
    let s : Settings := { classpath := ["a", "", "b"].map .ofString, options := ["-Xss4m", "Xmx1g"] }
    ∃ args joined, s.launchArgs {} = .ok args ∧
      args.options = ["-Djava.class.path=" ++ joined, "-DIGNITE_QUIET=false", "-Xss4m", "Xmx1g"] ∧
      joined.toList.splitOn ':' = [['a'], [], ['b']] ∧
      (({} : Runtime).launch 0 args).1 ≠ .ok () ∧ s.validate ≠ .ok () := by
  intro s
  have hfaithful := launch_faithful s {} (["a", "", "b"].map .ofString) rfl
  obtain ⟨args, hlaunched⟩ := hfaithful.1.mpr (by decide +kernel)
  obtain ⟨⟨joined, hoptions, -, hsplit⟩, hlaunch⟩ := hfaithful.2 args hlaunched
  obtain ⟨haccepted, hvalidated, -⟩ := hlaunch {} 0 rfl rfl
  have hrefused : (({} : Runtime).launch 0 args).1 ≠ .ok () := by
    rw [Ne, haccepted]
    exact fun heach => absurd (heach "Xmx1g" (by simp [s])) (by decide)
  refine ⟨args, joined, hlaunched, hoptions, hsplit _ rfl, hrefused, ?_⟩
  rwa [Ne, hvalidated (by simp [s])]

end GridBridge.Config.Settings
