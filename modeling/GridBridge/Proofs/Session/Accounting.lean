import GridBridge.Proofs.Session.Settled

/-!
# Accounting: what follows in every reachable world

No act ends in a fatal use of the runtime, and the account of references and handles always adds up:
eight global references are the descriptors' and one is each counted handle's, until the context goes
and takes its runtime along.
-/

namespace GridBridge.Session

open Protocol Seam Bridge Managed Relay

namespace World

variable {thread : ThreadId} {w w' : World} {act : Act} {outcome : Outcome} {leaked : Multiset Ref}

/-- The world that an act goes to when it ends so. -/
def next (w : World) (act : Act) (outcome : Outcome) : World :=
  w.after act outcome (act.run.run.run w.session).2

theorem goes_next (hallowed : w.Allows act) (hends : (act.run.run.run w.session).1 = .ok outcome) :
    w.Goes act outcome (w.next act outcome) :=
  ⟨hallowed, Prod.ext hends rfl, rfl⟩

/-! ## No fatal use -/

/-- **No act ends in a fatal use of the runtime**: each that is allowed goes on to a world. Nor does a
task that waits for a worker end in one, whatever the grid holds by then. The bound is the width of a
token: its number is not handed out a second time. -/
theorem never_fatal (h : w.Reachable) (hallowed : w.Allows act)
    (hroom : Leaves act.run InRange w.session) :
    (∃ outcome w', w.Goes act outcome w') ∧
      ∀ task ∈ w.session.runtime.tasks, ∀ (grid : Grid) (cause : Fatal),
        grid.execute task.op task.store task.request ≠ .error (.fatal cause) := by
  have hgrows : Grows act.run := grows_run
  obtain ⟨leaked, hsettled⟩ := settled_of_reachable h (hgrows.inRange hroom)
  obtain ⟨outcome, s, hran, _⟩ := hsettled.within_run hallowed hroom
  refine ⟨⟨outcome, w.after act outcome s, hallowed, hran, rfl⟩, fun task _ grid => ?_⟩
  exact execute_ne_fatal grid task.op task.store task.request

/-- A session with an empty file to open an instance from. -/
def unstarted : Session := { runtime := { files := { nodes := [([[99]], .file [])] } } }

/-- Its runtime was started. -/
def started : World := next { session := unstarted } (.start 0 Context.plainArgs false) (.ok none)

/-- And an instance was opened. -/
def opened : World :=
  started.next (.openInstance 0 "/c" "grid") (.ok (some { target := ⟨21⟩, cls := .processor }))

theorem goes_started :
    Goes { session := unstarted } (.start 0 Context.plainArgs false) (.ok none) started :=
  goes_next nofun (by decide +kernel)

theorem goes_opened : started.Goes (.openInstance 0 "/c" "grid")
    (.ok (some { target := ⟨21⟩, cls := .processor })) opened :=
  goes_next nofun (by decide +kernel)

theorem opened_reachable : opened.Reachable :=
  ⟨unstarted, ⟨rfl, rfl, rfl, rfl, rfl, rfl⟩, .step (.step (.refl _) goes_started) goes_opened⟩

theorem opened_never_fatal :
    opened.Reachable ∧
      opened.Allows (.dropHandle 0 { target := ⟨21⟩, cls := .processor }) ∧
      Leaves (Act.dropHandle 0 { target := ⟨21⟩, cls := .processor }).run InRange opened.session ∧
      (∃ outcome w',
        opened.Goes (.dropHandle 0 { target := ⟨21⟩, cls := .processor }) outcome w') ∧
      ∀ task ∈ opened.session.runtime.tasks, ∀ (grid : Grid) (cause : Fatal),
        grid.execute task.op task.store task.request ≠ .error (.fatal cause) := by
  have hallowed : opened.Allows (.dropHandle 0 { target := ⟨21⟩, cls := .processor }) := by
    intro handle hneeds
    obtain rfl := Option.some.inj hneeds
    exact List.mem_singleton_self _
  have hroom : Leaves (Act.dropHandle 0 { target := ⟨21⟩, cls := .processor }).run InRange
      opened.session := by
    unfold Leaves InRange
    decide +kernel
  exact ⟨opened_reachable, hallowed, hroom, never_fatal opened_reachable hallowed hroom⟩

/-! ## The account -/

/-- The global references that are alive. -/
def globals (w : World) : Multiset Ref := w.session.runtime.refs.tokens .globalRef

/-- The handles that the context counts, if there is one. -/
def handles (w : World) : Option Nat := w.session.context.map (·.liveHandles)

/-- The context is gone and its runtime destroyed. -/
structure TornDown (w : World) : Prop where
  context : w.session.context = none
  phase : w.session.runtime.phase = .destroyed

/-- Eight references are the descriptors', and the others are those of handles. -/
theorem Settled.count (h : w.Settled leaked) {ctx : Context} (hctx : w.session.context = some ctx) :
    w.session.runtime.refs.count .globalRef = 8 + ctx.liveHandles := by
  rw [RefTable.count_eq_card, (h.balanced.up ctx hctx).globals, (h.counted ctx hctx).1,
    Multiset.card_add, Nat.add_comm]
  rfl

/-- What ends in an error of the bridge was quiet. -/
theorem Settled.quiet_of_error {e : BridgeError} (h : w.Settled leaked)
    (hgoes : w.Goes act (.error e) w') (hrange : InRange w'.session) :
    Quiet (w.targets + leaked) w.session w'.session := by
  cases h.effect hgoes hrange with
  | quiet hquiet => exact hquiet

/-- A handle that is dropped gives its own reference back and is not counted any more, where threads
can attach; elsewhere all stays as it is. -/
theorem Settled.goes_dropHandle {handle : Handle} (h : w.Settled leaked)
    (hgoes : w.Goes (.dropHandle thread handle) outcome w') (hrange : InRange w'.session) :
    if w.admits then
      w.globals = handle.target ::ₘ w'.globals ∧ w.handles = w'.handles.map (· + 1)
    else w'.globals = w.globals ∧ w'.handles = w.handles := by
  have howned : handle ∈ w.owned := hgoes.allowed handle rfl
  cases h.effect hgoes hrange with
  | quiet hquiet _ hundropped =>
    rw [if_neg]
    · exact ⟨hquiet.globals, by rw [handles, hquiet.context]; rfl⟩
    · rw [admits, Bool.and_eq_true]
      exact hundropped
  | gained _ hopens => exact hopens.elim
  | lost hcontext hadmits hlost =>
    have hadmits : w.admits = true := by
      rw [admits, hcontext, hadmits]
      rfl
    -- before and after, the global references are the kept targets and the descriptors'
    rw [if_pos hadmits]
    obtain ⟨ctx, hctx, hctx'⟩ := hlost.counted
    obtain ⟨kept', hkept⟩ := Multiset.exists_cons_of_mem
      (Multiset.mem_add.mpr (.inl (mem_targets howned)) : handle.target ∈ w.targets + leaked)
    constructor
    · rw [globals, globals, (h.balanced.up ctx hctx).globals,
        ((hlost.balanced kept' hkept).up _ hctx').globals, hkept, Multiset.cons_add]
    · have hpositive : 0 < ctx.liveHandles := by
        rw [(h.counted ctx hctx).1, hkept, Multiset.card_cons]
        exact Nat.succ_pos _
      rw [handles, handles, hctx, hctx']
      exact congrArg some (Nat.sub_add_cancel hpositive).symm

/-- A handle that is owned is behind one of the global references while there is a context. -/
theorem Settled.mem_globals {handle : Handle} (h : w.Settled leaked) (howned : handle ∈ w.owned)
    (hcontext : w.session.context.isSome) : handle.target ∈ w.globals := by
  obtain ⟨ctx, hctx⟩ := Option.isSome_iff_exists.mp hcontext
  rw [globals, (h.balanced.up ctx hctx).globals]
  exact Multiset.mem_add.mpr (.inl (Multiset.mem_add.mpr (.inl (mem_targets howned))))

/-- A context that is dropped where threads can attach gives back the references of its descriptors,
and nothing else. -/
theorem Settled.goes_dropContext (h : w.Settled leaked)
    (hgoes : w.Goes (.dropContext thread) outcome w') (hrange : InRange w'.session)
    (hadmits : w.admits = true) :
    w'.TornDown ∧ ∃ ctx, w.session.context = some ctx ∧
      w.globals = w'.globals + ctx.descriptors.classes := by
  obtain ⟨hcontext, hruntime⟩ := Bool.and_eq_true_iff.mp hadmits
  cases h.effect hgoes hrange with
  | quiet _ _ hundropped => exact absurd hcontext hundropped
  | gained _ hopens => exact hopens.elim
  | ended _ hended =>
    obtain ⟨ctx, hctx⟩ := Option.isSome_iff_exists.mp hcontext
    refine ⟨⟨hended.context, hended.phase⟩, ctx, hctx, ?_⟩
    rw [globals, globals, hended.globals, if_pos hruntime, (h.balanced.up ctx hctx).globals]

/-- What is torn down stays so. -/
theorem Settled.goes_tornDown (h : w.Settled leaked) (hdown : w.TornDown)
    (hgoes : w.Goes act outcome w') (hrange : InRange w'.session) : w'.TornDown := by
  have hcontext : w.session.context.isSome = false := by
    rw [hdown.context]
    rfl
  cases h.effect hgoes hrange with
  | quiet hquiet =>
    have hnone : w'.session.context = none := hquiet.context.trans hdown.context
    rcases hquiet.balanced.down hnone with hphase | ⟨hidle, _⟩
    · exact ⟨hnone, hphase⟩
    · exact absurd (hdown.phase.symm.trans (hquiet.idle hidle)) nofun
  | began hbegan => exact absurd (hdown.phase.symm.trans hbegan.idle) nofun
  | gained hgained =>
    obtain ⟨ctx, hctx, _⟩ := hgained.counted
    exact absurd (hdown.context.symm.trans hctx) nofun
  | lost hsome => exact absurd (hcontext.symm.trans hsome) nofun
  | ended _ hended => exact ⟨hended.context, hended.phase⟩

theorem Reachable.reaches (h : w.Reachable) (hreaches : w.Reaches w') : w'.Reachable := by
  induction hreaches with
  | refl => exact h
  | step _ hgoes ih =>
    obtain ⟨s, hfresh, hbefore⟩ := ih
    exact ⟨s, hfresh, hbefore.step hgoes⟩

theorem TornDown.reaches (hdown : w.TornDown) (h : w.Reachable) (hreaches : w.Reaches w')
    (hrange : InRange w'.session) : w'.TornDown := by
  -- induction on the way there: no act brings a context back
  induction hreaches with
  | refl => exact hdown
  | step hbefore hgoes ih =>
    obtain ⟨leaked, hsettled⟩ := settled_of_reachable (h.reaches hbefore) (hgoes.inRange hrange)
    exact hsettled.goes_tornDown (ih (hgoes.inRange hrange)) hgoes hrange

/-- Without a context a handle that is dropped changes nothing at all. -/
theorem TornDown.run_dropHandle (hdown : w.TornDown) (thread : ThreadId) (handle : Handle) :
    (Act.dropHandle thread handle).run.run.run w.session = (.ok (.ok none), w.session) := by
  obtain ⟨_, s, hran, rfl, rfl⟩ : Yields (Act.dropHandle thread handle).run
      (fun outcome s => outcome = .ok none ∧ s = w.session) w.session := by
    refine yields_bind (yields_bind (yields_get ?_))
    rw [hdown.context]
    exact yields_bind (yields_pure (yields_pure (yields_pure ⟨rfl, rfl⟩)))
  exact hran

/-- **The account of a world.** -/
structure Accounted (w : World) : Prop where
  /-- Eight global references are the descriptors', and each counted handle has one. Counted are the
  promotions, less the handles that were dropped where threads could attach. -/
  alive : ∀ ctx, w.session.context = some ctx →
    w.session.runtime.refs.count .globalRef = 8 + ctx.liveHandles ∧
      ctx.liveHandles + w.released = w.promoted
  /-- What fails changes nothing. -/
  failed : ∀ act e w', w.Goes act (.error e) w' → InRange w'.session →
    w'.globals = w.globals ∧ w'.handles = w.handles
  /-- A handle that is dropped takes its own reference along where threads can attach. Elsewhere it
  stays counted, and its reference alive. -/
  dropped : ∀ thread handle outcome w', w.Goes (.dropHandle thread handle) outcome w' →
    InRange w'.session →
    if w.admits then
      w.globals = handle.target ::ₘ w'.globals ∧ w.handles = w'.handles.map (· + 1)
    else
      w'.globals = w.globals ∧ w'.handles = w.handles ∧
        (w.session.context.isSome → handle.target ∈ w'.globals)
  /-- A context that is dropped where threads can attach takes its own references along, and its
  runtime. -/
  ended : ∀ thread outcome w', w.Goes (.dropContext thread) outcome w' → InRange w'.session →
    w.admits → w'.TornDown ∧ ∃ ctx, w.session.context = some ctx ∧
      ctx.descriptors.classes.length = 8 ∧ w.globals = w'.globals + ctx.descriptors.classes
  /-- From then on handles can neither be called nor change anything when they are dropped. -/
  orphaned : w.TornDown → ∀ w', w.Reaches w' → InRange w'.session → ∀ thread (handle : Handle),
    handle.Orphaned (contextOn thread w'.session) ∧
      (Act.dropHandle thread handle).run.run.run w'.session = (.ok (.ok none), w'.session)

/-- **The account of references and handles adds up in every reachable world**, with the width of a
token as its bound. -/
theorem references_and_handles_accounted (h : w.Reachable) (hrange : InRange w.session) :
    w.Accounted := by
  -- what was promoted is owned or leaked, and this sum is what the runtime holds
  obtain ⟨leaked, hsettled⟩ := settled_of_reachable h hrange
  refine ⟨?_, ?_, ?_, ?_, ?_⟩
  · intro ctx hctx
    exact ⟨hsettled.count hctx, (hsettled.counted ctx hctx).2⟩
  · intro act e w' hgoes hrange'
    have hquiet := hsettled.quiet_of_error hgoes hrange'
    exact ⟨hquiet.globals, by rw [handles, hquiet.context]; rfl⟩
  · intro thread handle outcome w' hgoes hrange'
    have hdropped := hsettled.goes_dropHandle hgoes hrange'
    split
    · rename_i hadmits
      rwa [if_pos hadmits] at hdropped
    · rename_i hadmits
      rw [if_neg hadmits] at hdropped
      obtain ⟨hglobals, hhandles⟩ := hdropped
      refine ⟨hglobals, hhandles, fun hcontext => ?_⟩
      rw [hglobals]
      exact hsettled.mem_globals (hgoes.allowed handle rfl) hcontext
  · intro thread outcome w' hgoes hrange' hadmits
    obtain ⟨hdown, ctx, hctx, hglobals⟩ := hsettled.goes_dropContext hgoes hrange' hadmits
    exact ⟨hdown, ctx, hctx, rfl, hglobals⟩
  · intro hdown w' hreaches hrange' thread handle
    have hdown' : w'.TornDown := hdown.reaches h hreaches hrange'
    rw [contextOn_none hdown'.context]
    exact ⟨handle.orphaned, hdown'.run_dropHandle thread handle⟩

theorem opened_accounted :
    opened.Reachable ∧ InRange opened.session ∧ opened.Accounted := by
  have hrange : InRange opened.session := by
    unfold InRange
    decide +kernel
  exact ⟨opened_reachable, hrange, references_and_handles_accounted opened_reachable hrange⟩

end World

end GridBridge.Session
