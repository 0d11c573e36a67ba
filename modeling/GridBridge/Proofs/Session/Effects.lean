import GridBridge.Proofs.Session.Balance

/-!
# Effects: what each act does to the balance

**`Effect`** says what an act may do to a balanced session, and **`within_run`** that every act does
one of these things and never ends in a fatal use. Most acts are quiet: they change nothing that
counts, whether they succeed or not.
-/

namespace GridBridge.Session

open Protocol Seam Bridge Managed Relay

variable {α : Type} {thread : ThreadId} {s s' : Session} {kept : Multiset Ref}
  {classes : List (Ref × String)}

/-! ## Calls -/

section Calls

variable {handle : Handle} {op : Opcode} {input : Codec.Writer}

theorem openingLedger_clear {p : Bool} (hp : True → p = false) :
    { openingLedger s classes with pending := p } = openingLedger s classes := by
  rw [hp trivial]
  rfl

theorem Balanced.within_attach (h : Balanced s kept) :
    Within (perform thread Context.attach) (fun _ s' => Quiet kept s s') s := by
  obtain ⟨classes, hknown⟩ := h.exists_known
  refine h.within_perform hknown ?_
  exact Context.wp_contextAttach rfl (fun _ => rfl) (fun _ hp => openingLedger_clear hp)
    fun _ _ hp => openingLedger_clear hp

theorem Balanced.within_inOp (h : Balanced s kept) (hkept : handle.target ∈ kept) :
    Within (perform thread (handle.inOp (contextOn thread s) op input))
      (fun _ s' => Quiet kept s s') s := by
  obtain ⟨classes, hknown⟩ := h.exists_known
  refine h.within_perform hknown ?_
  exact Handle.wp_inOp (h.reaches hknown hkept) rfl (fun _ => rfl) (fun _ _ => rfl)
    fun _ _ hp => openingLedger_clear hp

theorem Balanced.within_inOutOp (h : Balanced s kept) (hkept : handle.target ∈ kept) :
    Within (perform thread (handle.inOutOp (contextOn thread s) op input))
      (fun _ s' => Quiet kept s s') s := by
  obtain ⟨classes, hknown⟩ := h.exists_known
  refine h.within_perform hknown ?_
  exact Handle.wp_inOutOp (h.reaches hknown hkept) rfl (fun _ => rfl) (fun _ _ => rfl)
    fun _ _ hp => openingLedger_clear hp

theorem Balanced.within_inOutOpAsync (h : Balanced s kept) (hkept : handle.target ∈ kept)
    {callback : Callback} {data : UInt64} :
    Within (perform thread (handle.inOutOpAsync (contextOn thread s) op input callback data))
      (fun _ s' => Quiet kept s s') s := by
  obtain ⟨classes, hknown⟩ := h.exists_known
  refine h.within_perform hknown ?_
  exact Handle.wp_inOutOpAsync (h.reaches hknown hkept) rfl (fun _ => rfl) (fun _ => rfl)
    fun _ _ hp => openingLedger_clear hp

/-- A removal is a call that waits for a reply, which is then read as a truth value. -/
theorem Balanced.within_remove (h : Balanced s kept) {cache : Cache} {key : Int32}
    (hkept : cache.handle.target ∈ kept) :
    Within (perform thread (cache.remove (contextOn thread s) key))
      (fun _ s' => Quiet kept s s') s := by
  obtain ⟨classes, hknown⟩ := h.exists_known
  refine h.within_perform hknown (Operation.wp_bind.mpr ?_)
  exact Handle.wp_inOp (h.reaches hknown hkept) rfl (fun _ => rfl) (fun _ _ => rfl)
    fun _ _ hp => openingLedger_clear hp

/-- An issued call is a call with the completion entry of the relay. If it fails at once, the relay
forgets it. -/
theorem Balanced.within_issueFrom (h : Balanced s kept) (hkept : handle.target ∈ kept) {l : LoopId}
    {reaction : Reaction} :
    Within (issueFrom thread handle op input l reaction) (fun _ s' => Quiet kept s s') s := by
  have hissued : Quiet kept s { s with relay := (s.relay.begin l reaction).2 } :=
    h.quiet_of_steady ⟨rfl, rfl, rfl⟩ rfl rfl rfl
  unfold issueFrom
  -- the number is registered first, so that no completion can come too early
  refine within_bind (fun id => grows_get fun s => grows_bind (grows_play _) grows_withdraw) ?_
  refine within_modifyGet (within_get ?_)
  refine within_bind grows_withdraw ?_
  refine (hissued.balanced.within_inOutOpAsync hkept).mono fun outcome s' hcalled => ?_
  cases outcome with
  | ok _ => exact within_pure (hissued.trans hcalled)
  | error e =>
    refine within_bind (fun _ => grows_pure) (within_modify (within_pure ?_))
    refine (hissued.trans hcalled).trans ?_
    exact hcalled.balanced.quiet_of_steady ⟨rfl, rfl, rfl⟩ rfl rfl rfl

end Calls

/-! ## Openings -/

section Openings

variable {ctx : Context} {name : String}

/-- An instance is opened in the context of the session, whatever the thread is. -/
theorem Balanced.within_start (h : Balanced s kept) (hctx : contextOn thread s = some ctx)
    {configPath : String} :
    Within (openOn thread (Instance.start ctx configPath name)) (Opening kept s (·.handle)) s := by
  obtain ⟨classes, hknown⟩ := h.exists_known
  obtain ⟨ctx', hctx', _⟩ := descriptors_of_contextOn hctx
  refine h.within_openOn hknown .processor (Instance.wp_start (h.usable hknown hctx)
    (fun _ => rfl) (fun i ℓ hopened => ?_) fun _ _ hp => openingLedger_clear hp)
  exact ⟨by rw [hctx']; rfl, hopened⟩

theorem Balanced.within_find (h : Balanced s kept) (hctx : contextOn thread s = some ctx) :
    Within (openOn thread (Instance.find ctx name)) (Opening kept s (·.handle)) s := by
  obtain ⟨classes, hknown⟩ := h.exists_known
  obtain ⟨ctx', hctx', _⟩ := descriptors_of_contextOn hctx
  refine h.within_openOn hknown .processor (Instance.wp_find (h.usable hknown hctx)
    (fun _ => rfl) (fun i ℓ hopened => ?_) fun _ _ hp => openingLedger_clear hp)
  exact ⟨by rw [hctx']; rfl, hopened⟩

/-- A cache is looked up through an instance that is kept. -/
theorem Balanced.within_cache (h : Balanced s kept) {source : Instance} {cacheName : Option String}
    (hkept : source.handle.target ∈ kept) :
    Within (openOn thread (source.cache (contextOn thread s) cacheName))
      (Opening kept s (·.handle)) s := by
  obtain ⟨classes, hknown⟩ := h.exists_known
  refine h.within_openOn hknown .cache (Instance.wp_cache (fun ctx hctx => ?_) (fun _ => rfl)
    (fun c ℓ hsome hopened => ?_) fun _ _ hp => openingLedger_clear hp)
  -- the instance is kept, so its target is among the global references
  · obtain ⟨husable, hmem⟩ := h.reaches hknown hkept ctx hctx
    exact ⟨husable, Ledger.holds_of_globals hmem⟩
  · obtain ⟨ctx, hctx⟩ := Option.isSome_iff_exists.mp hsome
    obtain ⟨ctx', hctx', _⟩ := descriptors_of_contextOn hctx
    exact ⟨by rw [hctx']; rfl, hopened⟩

end Openings

/-! ## Loops and workers -/

/-- Taking a number off the queue of a loop concerns the relay only. -/
theorem Balanced.within_deliverNext (h : Balanced s kept) {l : LoopId} :
    Within (deliverNext relayAccess (fun _ _ => pure ()) l) (fun _ s' => Quiet kept s s') s := by
  refine fun _ => yields_deliverNext.mono ?_
  rintro _ _ (rfl | ⟨id, claimed, after, -, rfl⟩)
  · exact h.quiet_refl
  · exact h.quiet_of_steady ⟨rfl, rfl, rfl⟩ rfl rfl rfl

/-- A worker leaves references and exceptions alone, and so do the completions it leads to. -/
theorem Balanced.within_workOnce (h : Balanced s kept) :
    Within workOnce (fun _ s' => Quiet kept s s') s := by
  intro _
  refine yields_bind (yields_get ?_)
  cases hwork : s.runtime.work? with
  | none => exact yields_pure h.quiet_refl
  | some runtime =>
    -- the task itself, then what it completed
    have hcalm := calm_work hwork
    have hreceived := calm_receiveAll { s with runtime }
    obtain ⟨_, hcontext, hsubstitutes, hholding⟩ := receiveAll_spec { s with runtime }
    refine yields_bind (yields_modify (yields_pure ?_))
    exact h.quiet_of_steady ⟨hcontext, hsubstitutes, hholding⟩ (hreceived.refs.trans hcalm.refs)
      (hreceived.pending.trans hcalm.pending) (hreceived.phase.trans hcalm.phase)

/-! ## Effects -/

/-- The act takes something from what is held: it drops the context, or a handle that can be given
back. -/
def Act.Drops (s : Session) : Act → Prop
  | .dropHandle .. => s.context.isSome ∧ s.runtime.admits
  | .dropContext _ => s.context.isSome
  | _ => False

/-- The act opens an instance or a cache. -/
def Act.Opens : Act → Prop
  | .openInstance .. | .findInstance .. | .openCache .. => True
  | _ => False

/-- What an act may do to a session that keeps these targets. -/
inductive Effect (kept : Multiset Ref) (s : Session) : Act → Outcome → Session → Prop where
  | quiet {act : Act} {outcome : Outcome} {s' : Session} (hquiet : Quiet kept s s')
      (hunopened : ∀ handle, outcome ≠ .ok (some handle)) (hundropped : ¬ act.Drops s) :
      Effect kept s act outcome s'
  | began {thread : ThreadId} {args : LaunchArgs} {hasErrorCallback : Bool} {s' : Session}
      (hbegan : Began s s') : Effect kept s (.start thread args hasErrorCallback) (.ok none) s'
  | gained {act : Act} {handle : Handle} {s' : Session} (hgained : Gained kept s handle s')
      (hopens : act.Opens) : Effect kept s act (.ok (some handle)) s'
  | lost {thread : ThreadId} {handle : Handle} {s' : Session} (hcontext : s.context.isSome)
      (hadmits : s.runtime.admits) (hlost : Lost kept s handle s') :
      Effect kept s (.dropHandle thread handle) (.ok none) s'
  | ended {thread : ThreadId} {s' : Session} (hcontext : s.context.isSome)
      (hended : Ended kept s s') : Effect kept s (.dropContext thread) (.ok none) s'

variable {act : Act}

theorem Effect.of_quiet {outcome : Outcome} (h : Quiet kept s s') (hdrops : ¬ act.Drops s)
    (hopened : outcome.toOption.join = none) : Effect kept s act outcome s' := by
  refine .quiet h (fun handle hsome => ?_) hdrops
  rw [hsome] at hopened
  exact absurd hopened nofun

theorem within_quietly {x : Step (Except BridgeError α)} (hdrops : ¬ act.Drops s)
    (h : Within x (fun _ s' => Quiet kept s s') s) :
    Within (Act.quietly x) (Effect kept s act) s := by
  refine within_bind (fun _ => grows_pure) (h.mono fun outcome s' hquiet => within_pure ?_)
  refine .of_quiet hquiet hdrops ?_
  cases outcome <;> rfl

theorem within_opening {x : Step (Except BridgeError α)} {handle : α → Handle}
    (hdrops : ¬ act.Drops s) (hopens : act.Opens)
    (h : Within x (Opening kept s handle) s) :
    Within (Act.opening handle x) (Effect kept s act) s := by
  refine within_bind (fun _ => grows_pure) (h.mono fun outcome s' hended => within_pure ?_)
  cases outcome with
  | ok opened => exact .gained hended hopens
  | error e => exact .of_quiet hended hdrops rfl

theorem Balanced.within_onContext (h : Balanced s kept) (hdrops : ¬ act.Drops s)
    {x : Context → Step Outcome}
    (hx : ∀ ctx, contextOn thread s = some ctx → Within (x ctx) (Effect kept s act) s) :
    Within (Act.onContext thread x) (Effect kept s act) s := by
  refine within_get ?_
  cases hcontext : contextOn thread s with
  | some ctx => exact hx ctx hcontext
  | none => exact within_pure (.of_quiet h.quiet_refl hdrops rfl)

/-- A change beside the runtime, or one that no reference depends on. -/
theorem Balanced.within_beside (h : Balanced s kept) (hdrops : ¬ act.Drops s)
    {f : Session → Session} (hsteady : Steady s (f s))
    (hrefs : (f s).runtime.refs = s.runtime.refs)
    (hpending : (f s).runtime.pending = s.runtime.pending)
    (hphase : (f s).runtime.phase = s.runtime.phase) :
    Within (do modify f; return .ok none) (Effect kept s act) s := by
  refine within_bind (fun _ => grows_pure) (within_modify (within_pure ?_))
  exact .of_quiet (h.quiet_of_steady hsteady hrefs hpending hphase) hdrops rfl

/-- **Every act has its effect**, and none ends in a fatal use. -/
theorem within_run (h : Balanced s kept)
    (hneeds : ∀ handle, act.needs = some handle → handle.target ∈ kept) :
    Within act.run (Effect kept s act) s := by
  -- one case for each act: an operation by its own lemma, a change beside the runtime by one lemma
  cases act with
  | switch change =>
    unfold Act.run setSwitch
    cases change <;>
      exact h.within_beside id ⟨rfl, rfl, rfl⟩ rfl rfl rfl
  | start thread args hasErrorCallback =>
    refine within_bind (fun _ => grows_pure) (h.within_startOn.mono fun outcome s' hended => ?_)
    refine within_pure ?_
    cases outcome with
    | ok _ => exact .began hended
    | error e => exact .of_quiet hended id rfl
  | attach thread => exact h.within_onContext id fun ctx _ => within_quietly id h.within_attach
  | openInstance thread configPath name =>
    exact h.within_onContext id fun ctx hctx => within_opening id trivial (h.within_start hctx)
  | findInstance thread name =>
    exact h.within_onContext id fun ctx hctx => within_opening id trivial (h.within_find hctx)
  | openCache thread source name =>
    exact within_get (within_opening id trivial (h.within_cache (hneeds source.handle rfl)))
  | put thread cache key value =>
    exact within_get (within_quietly id (h.within_inOp (hneeds _ rfl)))
  | remove thread cache key =>
    exact within_get (within_quietly id (h.within_remove (hneeds _ rfl)))
  | size thread cache =>
    exact within_get (within_quietly id (h.within_inOutOp (hneeds _ rfl)))
  | callIn thread handle op input =>
    exact within_get (within_quietly id (h.within_inOp (hneeds _ rfl)))
  | callInOut thread handle op input =>
    exact within_get (within_quietly id (h.within_inOutOp (hneeds _ rfl)))
  | callAsync thread handle op input callback data =>
    exact within_get (within_quietly id (h.within_inOutOpAsync (hneeds _ rfl)))
  | issue thread handle op input loop reaction =>
    exact within_quietly id (h.within_issueFrom (hneeds _ rfl))
  | dropHandle thread handle =>
    refine within_bind (fun _ => grows_pure) ?_
    cases hcontext : s.context with
    | none =>
      refine (within_releaseOn_none hcontext).mono ?_
      rintro _ _ rfl
      exact within_pure (.of_quiet h.quiet_refl (by simp [Act.Drops, hcontext]) rfl)
    | some ctx =>
      refine (h.within_releaseOn hcontext (hneeds _ rfl)).mono fun _ s' hended => within_pure ?_
      split at hended
      · rename_i hadmits
        exact .lost (by rw [hcontext]; rfl) hadmits hended
      · rename_i hadmits
        exact .of_quiet hended (fun hdrops => hadmits hdrops.2) rfl
  | dropContext thread =>
    refine within_bind (fun _ => grows_pure) ?_
    cases hcontext : s.context with
    | none =>
      refine (within_dropContextOn_none hcontext).mono ?_
      rintro _ _ rfl
      exact within_pure (.of_quiet h.quiet_refl (by simp [Act.Drops, hcontext]) rfl)
    | some ctx =>
      refine (h.within_dropContextOn hcontext).mono fun _ s' hended => within_pure ?_
      exact .ended (by rw [hcontext]; rfl) hended
  | openLoop => exact h.within_beside id ⟨rfl, rfl, rfl⟩ rfl rfl rfl
  | dropLoop loop => exact h.within_beside id ⟨rfl, rfl, rfl⟩ rfl rfl rfl
  | deliver loop =>
    refine within_bind (fun _ => grows_pure) (h.within_deliverNext.mono fun _ s' hquiet => ?_)
    exact within_pure (.of_quiet hquiet id rfl)
  | work =>
    refine within_bind (fun _ => grows_pure) (h.within_workOnce.mono fun _ s' hquiet => ?_)
    exact within_pure (.of_quiet hquiet id rfl)

end GridBridge.Session
