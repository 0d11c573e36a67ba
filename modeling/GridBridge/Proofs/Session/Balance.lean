import GridBridge.Proofs.Bridge.Operations
import GridBridge.Proofs.Bridge.Start
import GridBridge.Proofs.Session.Lasting

/-!
# Balance: what holds of a session between operations

**`Balanced`** is the invariant of a session: nothing is pending on any thread, there is no local
reference, and while there is a context, the global references are those of its descriptors and those
that it counts as handles. One lemma for each operation says that it keeps the balance, and what it
adds to or takes from the handles that are kept.
-/

namespace GridBridge.Session

open Protocol Seam Bridge Managed

variable {α : Type} {thread : ThreadId} {s s' : Session} {kept kept' : Multiset Ref} {ctx : Context}
  {classes : List (Ref × String)}

/-! ## The invariant -/

/-- The runtime is up for these descriptors, and holds nothing else but what is kept. -/
structure Serves (rt : Runtime) (d : Descriptors) (kept : Multiset Ref) : Prop where
  phase : rt.phase = .running
  bound : ∃ classes, d.Bound True classes ∧ ∀ c ∈ classes, rt.refs.Names c.1 c.2
  globals : rt.refs.tokens .globalRef = kept + d.classes

/-- Between operations: `kept` are the targets of the handles that were promoted and not released. -/
structure Balanced (s : Session) (kept : Multiset Ref) : Prop where
  untapped : Untapped s
  sound : s.runtime.refs.Sound
  locals : s.runtime.refs.tokens .localRef = 0
  clear : ∀ thread, s.runtime.pending? thread = none
  up : ∀ ctx, s.context = some ctx → Serves s.runtime ctx.descriptors kept
  down : s.context = none → s.runtime.phase = .destroyed ∨
    s.runtime.phase = .idle ∧ s.runtime.refs.tokens .globalRef = 0

/-- Nothing that counts has changed. A start that fails may have destroyed the runtime. -/
structure Quiet (kept : Multiset Ref) (s s' : Session) : Prop where
  balanced : Balanced s' kept
  context : s'.context = s.context
  globals : s'.runtime.refs.tokens .globalRef = s.runtime.refs.tokens .globalRef
  idle : s'.runtime.phase = .idle → s.runtime.phase = .idle

/-- Nothing has changed. -/
theorem Balanced.quiet_refl (h : Balanced s kept) : Quiet kept s s := ⟨h, rfl, rfl, id⟩

/-- One quiet operation after another. -/
theorem Quiet.trans {s'' : Session} (h : Quiet kept s s') (h' : Quiet kept s' s'') :
    Quiet kept s s'' :=
  ⟨h'.balanced, h'.context.trans h.context, h'.globals.trans h.globals, fun hi => h.idle (h'.idle hi)⟩

/-- What is around the runtime may change, and what no reference depends on. -/
theorem Balanced.quiet_of_steady (h : Balanced s kept) (hsteady : Steady s s')
    (hrefs : s'.runtime.refs = s.runtime.refs) (hpending : s'.runtime.pending = s.runtime.pending)
    (hphase : s'.runtime.phase = s.runtime.phase) : Quiet kept s s' where
  balanced := {
    untapped := hsteady.untapped h.untapped
    sound := hrefs ▸ h.sound
    locals := hrefs ▸ h.locals
    clear := by
      intro thread
      rw [Runtime.pending?, hpending]
      exact h.clear thread
    up := by
      intro ctx hctx
      have hup := h.up ctx (hsteady.context ▸ hctx)
      exact ⟨hphase.trans hup.phase, hrefs ▸ hup.bound, hrefs ▸ hup.globals⟩
    -- without a context nothing is held, and no reference was made
    down := by
      intro hnone
      rw [hphase, hrefs]
      exact h.down (hsteady.context ▸ hnone) }
  context := hsteady.context
  globals := by rw [hrefs]
  idle := fun hidle => hphase ▸ hidle

/-- What is beside the runtime may change, but for the context and the tap. -/
theorem Balanced.of_runtime (h : Balanced s kept) (hsteady : Steady s s')
    (hruntime : s'.runtime = s.runtime) : Balanced s' kept :=
  (h.quiet_of_steady hsteady (congrArg _ hruntime) (congrArg _ hruntime) (congrArg _ hruntime)).balanced

/-! ## The ledger of an operation -/

/-- What is known of classes when an operation begins. -/
structure Known (s : Session) (classes : List (Ref × String)) : Prop where
  names : ∀ c ∈ classes, s.runtime.refs.Names c.1 c.2
  bound : ∀ ctx, s.context = some ctx → ctx.descriptors.Bound True classes

/-- The descriptors of the context say what is known of classes. -/
theorem Balanced.exists_known (h : Balanced s kept) : ∃ classes, Known s classes := by
  cases hcontext : s.context with
  | none => exact ⟨[], nofun, fun ctx hctx => absurd (hcontext.symm.trans hctx) nofun⟩
  | some ctx =>
    obtain ⟨classes, hbound, hnames⟩ := (h.up ctx hcontext).bound
    refine ⟨classes, hnames, fun ctx' hctx' => ?_⟩
    rw [← Option.some.inj (hcontext.symm.trans hctx')]
    exact hbound

/-- The ledger that an operation begins with. -/
def openingLedger (s : Session) (classes : List (Ref × String)) : Ledger where
  globals := s.runtime.refs.tokens .globalRef
  classes := classes
  admits := s.runtime.admits
  vacant := decide (s.runtime.phase = .idle)

/-- The ledger that an operation begins with is right about the runtime. -/
theorem Balanced.mirrors (h : Balanced s kept) (hknown : Known s classes) :
    Mirrors s.runtime.phase thread s.runtime (openingLedger s classes) where
  listed := ⟨h.sound, h.locals, rfl, hknown.names⟩
  pending := by rw [h.clear]; rfl
  others := fun other _ => h.clear other
  phase := rfl
  admits := rfl
  vacant := rfl

/-- Where nothing is pending on the thread of the ledger, nothing is on any. -/
theorem clear_of_mirrors {origin : Phase} {rt : Runtime} {ℓ : Ledger}
    (h : Mirrors origin thread rt ℓ) (hpending : ℓ.pending = false) :
    ∀ other, rt.pending? other = none := by
  intro other
  -- the ledger speaks for its own thread, and the relation for all others
  by_cases hother : other = thread
  · rw [hother]
    exact Option.not_isSome_iff_eq_none.mp (by simp [h.pending, hpending])
  · exact h.others other hother

/-- An operation that ends with the runtime up has kept what its ledger says. -/
theorem Balanced.settle (h : Balanced s kept) (hknown : Known s classes) (hsteady : Steady s s')
    {globals : Multiset Ref} {classes' : List (Ref × String)}
    (hmirrors : Mirrors s.runtime.phase thread s'.runtime
      { openingLedger s classes with globals, classes := classes' })
    (hclasses : classes ⊆ classes')
    (hup : ∀ ctx, s.context = some ctx → globals = kept' + ctx.descriptors.classes)
    (hdown : s.context = none → globals = s.runtime.refs.tokens .globalRef) :
    Balanced s' kept' ∧ s'.runtime.phase = s.runtime.phase := by
  have hphase : s'.runtime.phase = s.runtime.phase := hmirrors.phase_eq rfl rfl
  have hglobals : s'.runtime.refs.tokens .globalRef = globals := hmirrors.listed.globals
  -- the runtime is in the phase it was in, so the context is up or down as before
  refine ⟨⟨hsteady.untapped h.untapped, hmirrors.listed.sound, hmirrors.listed.locals,
    clear_of_mirrors hmirrors rfl, ?_, ?_⟩, hphase⟩
  · intro ctx hctx
    have hctx : s.context = some ctx := hsteady.context ▸ hctx
    have hbound := hknown.bound ctx hctx
    refine ⟨hphase.trans (h.up ctx hctx).phase, ⟨classes', ?_, hmirrors.listed.known⟩, ?_⟩
    · exact ⟨hbound.nonNull, fun c hc => hclasses (hbound.known c hc), hbound.methods⟩
    · rw [hglobals, hup ctx hctx]
  · intro hnone
    have hnone : s.context = none := hsteady.context ▸ hnone
    rw [hphase, hglobals, hdown hnone]
    exact h.down hnone

/-- The ledger is what it was, so nothing that counts has changed. -/
theorem Balanced.quiet_of_mirrors (h : Balanced s kept) (hknown : Known s classes)
    (hsteady : Steady s s')
    (hmirrors : Mirrors s.runtime.phase thread s'.runtime (openingLedger s classes)) :
    Quiet kept s s' := by
  obtain ⟨hbalanced, hphase⟩ := h.settle hknown hsteady hmirrors (List.Subset.refl _)
    (fun ctx hctx => (h.up ctx hctx).globals) fun _ => rfl
  exact ⟨hbalanced, hsteady.context, hmirrors.listed.globals, fun hidle => hphase ▸ hidle⟩

/-- An operation that ends with the ledger it began with changes nothing that counts. -/
theorem Balanced.within_perform (h : Balanced s kept) (hknown : Known s classes)
    {operation : Operation α}
    (hop : Operation.wp (rules True) operation (fun _ ℓ => ℓ = openingLedger s classes)
      (fun _ ℓ => ℓ = openingLedger s classes) (openingLedger s classes)) :
    Within (perform thread operation) (fun _ s' => Quiet kept s s') s := by
  refine (within_play hop (h.mirrors hknown) h.untapped).mono ?_
  rintro outcome s' ⟨hsteady, ℓ, hended, hmirrors⟩
  -- both outcomes leave the ledger as it was
  obtain rfl : ℓ = openingLedger s classes := by cases outcome <;> exact hended
  exact h.quiet_of_mirrors hknown hsteady hmirrors

/-! ## Contexts and handles as an operation sees them -/

/-- Without a context no thread sees one. -/
theorem contextOn_none (h : s.context = none) : contextOn thread s = none := by
  unfold contextOn
  split
  · exact h
  · rw [h]
    rfl

/-- What a thread sees of the context differs in what is shown in the log only. -/
theorem descriptors_of_contextOn (h : contextOn thread s = some ctx) :
    ∃ ctx', s.context = some ctx' ∧ ctx'.descriptors = ctx.descriptors := by
  unfold contextOn at h
  split at h
  · exact ⟨ctx, h, rfl⟩
  · obtain ⟨ctx', hctx', rfl⟩ := Option.map_eq_some_iff.mp h
    exact ⟨ctx', hctx', rfl⟩

/-- A context that a thread sees can be used. -/
theorem Balanced.usable (h : Balanced s kept) (hknown : Known s classes)
    (hctx : contextOn thread s = some ctx) :
    Usable ctx.descriptors True (openingLedger s classes) := by
  obtain ⟨ctx', hctx', hsame⟩ := descriptors_of_contextOn hctx
  rw [← hsame]
  refine ⟨rfl, hknown.bound ctx' hctx', fun r hr => ?_⟩
  show r ∈ s.runtime.refs.tokens .globalRef
  rw [(h.up ctx' hctx').globals]
  exact Multiset.mem_add.mpr (.inr hr)

/-- A handle that is kept reaches its target while there is a context. -/
theorem Balanced.reaches (h : Balanced s kept) (hknown : Known s classes) {handle : Handle}
    (hkept : handle.target ∈ kept) :
    handle.Reaches (contextOn thread s) True (openingLedger s classes) := by
  intro ctx hctx
  obtain ⟨ctx', hctx', _⟩ := descriptors_of_contextOn hctx
  refine ⟨h.usable hknown hctx, ?_⟩
  show handle.target ∈ s.runtime.refs.tokens .globalRef
  rw [(h.up ctx' hctx').globals]
  exact Multiset.mem_add.mpr (.inl hkept)

/-- How many handles the context counts does not matter to the references. -/
theorem Balanced.recount (h : Balanced s kept) (f : Nat → Nat) :
    Balanced { s with
      context := s.context.map fun ctx => { ctx with liveHandles := f ctx.liveHandles } } kept where
  untapped := ⟨h.untapped.substitutes, h.untapped.holding⟩
  sound := h.sound
  locals := h.locals
  clear := h.clear
  up := by
    intro ctx hctx
    obtain ⟨ctx', hctx', rfl⟩ := Option.map_eq_some_iff.mp hctx
    exact h.up ctx' hctx'
  down := fun hnone => h.down (Option.map_eq_none_iff.mp hnone)

/-! ## Opening and releasing handles -/

/-- One handle more is kept and counted. -/
structure Gained (kept : Multiset Ref) (s : Session) (handle : Handle) (s' : Session) : Prop where
  balanced : Balanced s' (handle.target ::ₘ kept)
  counted : ∃ ctx, s.context = some ctx ∧
    s'.context = some { ctx with liveHandles := ctx.liveHandles + 1 }
  idle : s'.runtime.phase = .idle → s.runtime.phase = .idle

/-- One handle less is kept and counted. -/
structure Lost (kept : Multiset Ref) (s : Session) (handle : Handle) (s' : Session) : Prop where
  balanced : ∀ kept', kept = handle.target ::ₘ kept' → Balanced s' kept'
  counted : ∃ ctx, s.context = some ctx ∧
    s'.context = some { ctx with liveHandles := ctx.liveHandles - 1 }
  idle : s'.runtime.phase = .idle → s.runtime.phase = .idle

/-- What an opening comes to: one handle more, or nothing that counts. -/
def Opening (kept : Multiset Ref) (s : Session) (handle : α → Handle) :
    Except BridgeError α → Session → Prop
  | .ok opened => Gained kept s (handle opened)
  | .error _ => Quiet kept s

/-- An opening gains a handle, or nothing that counts changes. -/
theorem Balanced.within_openOn (h : Balanced s kept) (hknown : Known s classes)
    {operation : Operation α} {handle : α → Handle} (cls : TargetClass)
    (hop : Operation.wp (rules True) operation
      (fun opened ℓ => s.context.isSome ∧
        Instance.Opened (openingLedger s classes) (handle opened) cls ℓ)
      (fun _ ℓ => ℓ = openingLedger s classes) (openingLedger s classes)) :
    Within (openOn thread operation) (Opening kept s handle) s := by
  unfold openOn
  refine within_bind (fun outcome => ?_) ?_
  · cases outcome with
    | ok opened => exact grows_bind (grows_modify fun _ => rfl) fun _ => grows_pure
    | error e => exact grows_pure
  refine (within_play hop (h.mirrors hknown) h.untapped).mono ?_
  rintro outcome s' ⟨hsteady, ℓ, hended, hmirrors⟩
  cases outcome with
  | error e =>
    obtain rfl : ℓ = openingLedger s classes := hended
    exact within_pure (h.quiet_of_mirrors hknown hsteady hmirrors)
  | ok opened =>
    obtain ⟨hsome, _, hnull, classes', hclasses, rfl⟩ := hended
    obtain ⟨ctx, hctx⟩ := Option.isSome_iff_exists.mp hsome
    -- the new reference counts among the kept ones, not among those of the descriptors
    have hglobals : ∀ ctx, s.context = some ctx →
        s.runtime.refs.tokens .globalRef + held (handle opened).target =
          (handle opened).target ::ₘ kept + ctx.descriptors.classes := by
      intro ctx hctx
      rw [add_held hnull, (h.up ctx hctx).globals, Multiset.cons_add]
    obtain ⟨hbalanced, hphase⟩ := h.settle hknown hsteady hmirrors hclasses hglobals
      fun hnone => absurd (hctx.symm.trans hnone) nofun
    refine within_bind (fun _ => grows_pure) (within_modify (within_pure ⟨?_, ?_, ?_⟩))
    · exact hbalanced.recount (· + 1)
    · exact ⟨ctx, hctx, by rw [hsteady.context, hctx]; rfl⟩
    · exact fun hidle => hphase ▸ hidle

/-- Without a context there is nothing to give back. -/
theorem within_releaseOn_none (hnone : s.context = none) {handle : Handle} :
    Within (releaseOn thread handle) (fun _ s' => s' = s) s := by
  intro _
  refine yields_bind (yields_get ?_)
  rw [hnone]
  exact yields_bind (yields_pure (yields_pure rfl))

/-- Releasing a handle gives its reference back where threads can attach, and says so. -/
theorem wp_release {handle : Handle} {G : Multiset Ref}
    (hglobals : s.runtime.refs.tokens .globalRef = G + held handle.target) :
    (handle.release (some ctx)).wp (rules True)
      (fun released ℓ => released = s.runtime.admits ∧ ℓ = { openingLedger s classes with
        globals := if s.runtime.admits then G else s.runtime.refs.tokens .globalRef })
      (openingLedger s classes) := by
  refine Handle.wp_release rfl (fun _ => rfl) hglobals ?_ ?_
  · intro p hp hadmitted
    obtain rfl := hp trivial
    have hadmits : s.runtime.admits = true := hadmitted trivial rfl
    rw [if_pos hadmits]
    exact ⟨hadmits.symm, rfl⟩
  · intro p hp hrefused
    obtain rfl := hp trivial
    have hadmits : s.runtime.admits = false := hrefused trivial rfl
    rw [if_neg (Bool.not_eq_true _ ▸ hadmits)]
    exact ⟨hadmits.symm, rfl⟩

/-- A handle that is kept is given back where threads can attach, else it stays as it is. -/
theorem Balanced.within_releaseOn (h : Balanced s kept) (hctx : s.context = some ctx)
    {handle : Handle} (hkept : handle.target ∈ kept) :
    Within (releaseOn thread handle) (fun _ s' =>
      if s.runtime.admits then Lost kept s handle s' else Quiet kept s s') s := by
  obtain ⟨classes, hknown⟩ := h.exists_known
  obtain ⟨kept', rfl⟩ := Multiset.exists_cons_of_mem hkept
  have hmem : handle.target ∈ s.runtime.refs.tokens .globalRef := by
    rw [(h.up ctx hctx).globals]
    exact Multiset.mem_add.mpr (.inl hkept)
  have hglobals : s.runtime.refs.tokens .globalRef =
      (kept' + ctx.descriptors.classes) + held handle.target := by
    rw [add_held (h.sound.not_null hmem), (h.up ctx hctx).globals, Multiset.cons_add]
  -- what is done after the script hands out no number
  have hrest : ∀ released : Bool, Grows (if released then countHandles (· - 1) else pure ()) := by
    intro released
    split
    · exact grows_modify fun _ => rfl
    · exact grows_pure
  refine within_get (within_bind hrest ?_)
  rw [hctx]
  refine (within_play (wp_release hglobals) (h.mirrors hknown) h.untapped).mono ?_
  rintro _ s' ⟨hsteady, ℓ, ⟨rfl, rfl⟩, hmirrors⟩
  cases hadmits : s.runtime.admits with
  | true =>
    rw [hadmits] at hmirrors
    -- the context is still this one, so what is kept is the rest
    have hup : ∀ ctx', s.context = some ctx' →
        kept' + (ctx.descriptors.classes : Multiset Ref) = kept' + ctx'.descriptors.classes := by
      intro ctx' hctx'
      rw [Option.some.inj (hctx.symm.trans hctx')]
    obtain ⟨hbalanced, hphase⟩ := h.settle hknown hsteady hmirrors (List.Subset.refl _) hup
      fun hnone => absurd (hctx.symm.trans hnone) nofun
    refine within_modify ⟨?_, ?_, ?_⟩
    · intro kept'' hcons
      rw [← (Multiset.cons_inj_right _).mp hcons]
      exact hbalanced.recount (· - 1)
    · exact ⟨ctx, hctx, by rw [hsteady.context, hctx]; rfl⟩
    · exact fun hidle => hphase ▸ hidle
  | false =>
    rw [hadmits] at hmirrors
    exact within_pure (h.quiet_of_mirrors hknown hsteady hmirrors)

/-! ## The end of a context -/

/-- The context is gone and its runtime destroyed. Its own references are given back where threads
could attach. -/
structure Ended (kept : Multiset Ref) (s s' : Session) : Prop where
  balanced : Balanced s' kept
  context : s'.context = none
  phase : s'.runtime.phase = .destroyed
  globals : s'.runtime.refs.tokens .globalRef =
    if s.runtime.admits then kept else s.runtime.refs.tokens .globalRef

/-- Where there is no context none is ended. -/
theorem within_dropContextOn_none (hnone : s.context = none) :
    Within (dropContextOn thread) (fun _ s' => s' = s) s := by
  refine within_get ?_
  rw [hnone]
  exact within_pure rfl

/-- The end of a context gives its own references back, and destroys the runtime. -/
theorem Balanced.within_dropContextOn (h : Balanced s kept) (hctx : s.context = some ctx) :
    Within (dropContextOn thread) (fun _ s' => Ended kept s s') s := by
  obtain ⟨classes, hknown⟩ := h.exists_known
  have husable : Usable ctx.descriptors True (openingLedger s classes) := by
    refine ⟨rfl, hknown.bound ctx hctx, fun r hr => ?_⟩
    show r ∈ s.runtime.refs.tokens .globalRef
    rw [(h.up ctx hctx).globals]
    exact Multiset.mem_add.mpr (.inr hr)
  have hscript : ctx.tearDown.wp (rules True) (fun _ ℓ => ℓ = { openingLedger s classes with
      globals := if s.runtime.admits then kept else s.runtime.refs.tokens .globalRef
      destroys := 1 }) (openingLedger s classes) := by
    refine Context.wp_tearDown husable (h.up ctx hctx).globals (fun _ => rfl) ?_ ?_
    · intro p hp hadmits
      obtain rfl := hp trivial
      rw [if_pos (show s.runtime.admits = true from hadmits trivial rfl)]
      rfl
    · intro p hp hrefused
      obtain rfl := hp trivial
      rw [show s.runtime.admits = false from hrefused trivial rfl]
      rfl
  refine within_get ?_
  rw [hctx]
  refine within_bind (fun _ => grows_bind (grows_play _) fun _ => grows_pure) (within_modify ?_)
  refine within_bind (fun _ => grows_pure) ?_
  -- the context is forgotten first, but its script still knows what to give back
  refine (within_play (s := { s with context := none }) hscript (h.mirrors hknown)
    ⟨h.untapped.substitutes, h.untapped.holding⟩).mono ?_
  rintro _ s' ⟨hsteady, ℓ, rfl, hmirrors⟩
  have hphase : s'.runtime.phase = .destroyed := hmirrors.phase
  refine within_pure ⟨⟨?_, hmirrors.listed.sound, hmirrors.listed.locals,
    clear_of_mirrors hmirrors rfl, ?_, fun _ => .inl hphase⟩, hsteady.context, hphase,
    hmirrors.listed.globals⟩
  · exact ⟨hsteady.substitutes.trans h.untapped.substitutes,
      hsteady.holding.trans h.untapped.holding⟩
  · exact fun ctx hctx => absurd (hsteady.context.symm.trans hctx) nofun

/-! ## The beginning of a context -/

/-- An idle runtime was started for a context that has no handles yet. -/
structure Began (s s' : Session) : Prop where
  idle : s.runtime.phase = .idle
  balanced : Balanced s' 0
  counted : ∃ ctx, s'.context = some ctx ∧ ctx.liveHandles = 0
  phase : s'.runtime.phase = .running

/-- A runtime that a launch takes has no context yet and holds nothing. -/
theorem Balanced.of_idle (h : Balanced s kept) (hidle : s.runtime.phase = .idle) :
    s.context = none ∧ s.runtime.refs.tokens .globalRef = 0 := by
  -- a context is only there while its runtime is running
  have hnone : s.context = none := by
    cases hcontext : s.context with
    | none => rfl
    | some ctx => exact absurd (hidle.symm.trans (h.up ctx hcontext).phase) nofun
  rcases h.down hnone with hdestroyed | ⟨_, hglobals⟩
  · exact absurd (hidle.symm.trans hdestroyed) nofun
  · exact ⟨hnone, hglobals⟩

/-- The ledger of a start that succeeded. The runtime was idle, and only the descriptors came. -/
def Started (s : Session) (classes : List (Ref × String)) (d : Descriptors) (ℓ : Ledger) : Prop :=
  s.runtime.phase = .idle ∧ ∃ classes' registered, d.Bound True classes' ∧
    ℓ = { openingLedger s classes with
      globals := s.runtime.refs.tokens .globalRef + d.classes
      classes := classes'
      registered
      launches := 1 }

/-- The ledger of a start that failed: the launch was refused, or what it made was taken back. -/
def Aborted (s : Session) (classes : List (Ref × String)) (ℓ : Ledger) : Prop :=
  ℓ = openingLedger s classes ∨ s.runtime.phase = .idle ∧ ∃ classes',
    ℓ = { openingLedger s classes with classes := classes', launches := 1, destroys := 1 }

/-- A start ends in one of two ledgers. -/
theorem wp_start (s : Session) (classes : List (Ref × String)) (args : LaunchArgs) :
    Operation.wp (rules True) (Context.start args) (Started s classes)
      (fun _ => Aborted s classes) (openingLedger s classes) := by
  -- a launch that succeeds says that the runtime was idle
  have hidle : (True → (openingLedger s classes).launches = 0 →
      (openingLedger s classes).vacant = true) → s.runtime.phase = .idle :=
    fun hvacant => of_decide_eq_true (hvacant trivial rfl)
  refine Context.wp_start args rfl (fun _ => rfl) ?_ ?_ ?_
  · intro d classes' p hbound hp hvacant
    obtain rfl := hp trivial
    exact ⟨hidle hvacant, classes', _, hbound, rfl⟩
  · intro e p hp
    obtain rfl := hp trivial
    exact .inl rfl
  · intro e classes' p hp hvacant
    obtain rfl := hp trivial
    exact .inr ⟨hidle hvacant, classes', rfl⟩

/-- A start that succeeded has begun a context. -/
theorem Balanced.began (h : Balanced s kept) (hsteady : Steady s s') {d : Descriptors} {ℓ : Ledger}
    (hstarted : Started s classes d ℓ)
    (hmirrors : Mirrors s.runtime.phase thread s'.runtime ℓ) (hasErrorCallback : Bool)
    (describeFaults : Bool) :
    Began s { s' with
      context := some { descriptors := d, hasErrorCallback, describeFaults } } := by
  obtain ⟨hidle, classes', registered, hbound, rfl⟩ := hstarted
  obtain ⟨_, hnothing⟩ := h.of_idle hidle
  obtain ⟨hsubstitutes, hholding⟩ := hsteady.untapped h.untapped
  have hphase : s'.runtime.phase = .running := hmirrors.phase
  refine ⟨hidle, ⟨⟨hsubstitutes, hholding⟩, hmirrors.listed.sound, hmirrors.listed.locals,
    clear_of_mirrors hmirrors rfl, ?_, nofun⟩, ⟨_, rfl, rfl⟩, hphase⟩
  rintro _ ⟨⟩
  refine ⟨hphase, ⟨classes', hbound, hmirrors.listed.known⟩, ?_⟩
  rw [← hnothing]
  exact hmirrors.listed.globals

/-- One that failed has changed nothing that counts. -/
theorem Balanced.quiet_of_aborted (h : Balanced s kept) (hknown : Known s classes)
    (hsteady : Steady s s') {ℓ : Ledger} (haborted : Aborted s classes ℓ)
    (hmirrors : Mirrors s.runtime.phase thread s'.runtime ℓ) : Quiet kept s s' := by
  rcases haborted with rfl | ⟨hidle, classes', rfl⟩
  · exact h.quiet_of_mirrors hknown hsteady hmirrors
  · -- the runtime that was launched is destroyed again, and there is no context
    obtain ⟨hnone, _⟩ := h.of_idle hidle
    have hnone' : s'.context = none := hsteady.context.trans hnone
    have hphase : s'.runtime.phase = .destroyed := hmirrors.phase
    refine ⟨⟨hsteady.untapped h.untapped, hmirrors.listed.sound, hmirrors.listed.locals,
      clear_of_mirrors hmirrors rfl, ?_, fun _ => .inl hphase⟩, hsteady.context,
      hmirrors.listed.globals, fun _ => hidle⟩
    exact fun ctx hctx => absurd (hnone'.symm.trans hctx) nofun

/-- A start begins a context, or it fails and leaves nothing that counts. -/
theorem Balanced.within_startOn (h : Balanced s kept) {args : LaunchArgs}
    {hasErrorCallback : Bool} :
    Within (startOn thread args hasErrorCallback) (fun outcome s' =>
      match outcome with
      | .ok _ => Began s s'
      | .error _ => Quiet kept s s') s := by
  obtain ⟨classes, hknown⟩ := h.exists_known
  unfold startOn
  refine within_bind grows_install
    ((within_play (wp_start s classes args) (h.mirrors hknown) h.untapped).mono ?_)
  rintro outcome s' ⟨hsteady, ℓ, hended, hmirrors⟩
  cases outcome with
  | ok d =>
    refine within_bind (fun _ => grows_bind (grows_modify fun _ => rfl) fun _ => grows_pure) ?_
    -- there is no old context to be dropped
    have hnone : s'.context = none := hsteady.context.trans (h.of_idle hended.1).1
    refine (within_dropContextOn_none hnone).mono ?_
    rintro _ _ rfl
    refine within_bind (fun _ => grows_pure) (within_modify (within_pure ?_))
    exact h.began hsteady hended hmirrors hasErrorCallback _
  | error e => exact within_pure (h.quiet_of_aborted hknown hsteady hended hmirrors)

end GridBridge.Session
