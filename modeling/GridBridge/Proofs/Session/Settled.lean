import GridBridge.Proofs.Session.Effects

/-!
# Settled worlds: the invariant of sessions

**`Settled`** is the invariant of a world: the targets of the handles that are owned, and of those
that leaked because no thread could attach when they were dropped, are what the session keeps. Every
act preserves it (`settled_after`), so it holds in every world that is reached (`settled_of_reachable`).
-/

namespace GridBridge.Session

open Protocol Seam Bridge Managed Relay

variable {thread : ThreadId} {s s' : Session} {act : Act} {outcome : Outcome} {n : Nat}

namespace World

variable {w w' : World} {leaked : Multiset Ref}

/-! ## The invariant -/

/-- The targets of the handles that are owned. -/
def targets (w : World) : Multiset Ref := (w.owned.map (·.target) : List Ref)

/-- What the session keeps are the targets of owned handles and of leaked ones, and the context counts
them all. -/
structure Settled (w : World) (leaked : Multiset Ref) : Prop where
  balanced : Balanced w.session (w.targets + leaked)
  counted : ∀ ctx, w.session.context = some ctx →
    ctx.liveHandles = (w.targets + leaked).card ∧ ctx.liveHandles + w.released = w.promoted
  idle : w.session.runtime.phase = .idle →
    w.owned = [] ∧ leaked = 0 ∧ w.promoted = 0 ∧ w.released = 0

theorem settled_of_fresh (h : Fresh s) : Settled { session := s } 0 where
  balanced := {
    untapped := ⟨h.substitutes, h.holding⟩
    sound := by
      rw [h.refs]
      exact ⟨Nat.one_pos, Nat.one_le_two_pow, nofun, List.nodup_nil⟩
    locals := by rw [h.refs]; rfl
    clear := by
      intro thread
      rw [Runtime.pending?, h.pending]
      rfl
    up := fun ctx hctx => absurd (h.context.symm.trans hctx) nofun
    down := fun _ => .inr ⟨h.phase, by rw [h.refs]; rfl⟩ }
  counted := fun ctx hctx => absurd (h.context.symm.trans hctx) nofun
  idle := fun _ => ⟨rfl, rfl, rfl, rfl⟩

/-- A handle that is owned is among the targets; without it the rest is. -/
theorem targets_erase {handle : Handle} (h : handle ∈ w.owned) :
    w.targets = handle.target ::ₘ ((w.owned.erase handle).map (·.target) : List Ref) :=
  Multiset.coe_eq_coe.mpr ((List.perm_cons_erase h).map (·.target))

theorem mem_targets {handle : Handle} (h : handle ∈ w.owned) : handle.target ∈ w.targets :=
  Multiset.mem_coe.mpr (List.mem_map_of_mem h)

/-! ## What an act leaves of a world -/

theorem after_quiet (hact : ∀ thread handle, act ≠ .dropHandle thread handle)
    (hunopened : ∀ handle, outcome ≠ .ok (some handle)) :
    w.after act outcome s = { w with session := s } := by
  rcases outcome with e | handle | handle
  · cases act <;> first | rfl | exact absurd rfl (hact _ _)
  · cases act <;> first | rfl | exact absurd rfl (hact _ _)
  · exact absurd rfl (hunopened handle)

theorem after_opened {handle : Handle} (hopens : act.Opens) :
    w.after act (.ok (some handle)) s =
      { w with session := s, owned := handle :: w.owned, promoted := w.promoted + 1 } := by
  cases act <;> first | rfl | exact hopens.elim

theorem after_dropHandle {handle : Handle} (hunopened : ∀ handle, outcome ≠ .ok (some handle)) :
    w.after (.dropHandle thread handle) outcome s =
      { w with
        session := s
        owned := w.owned.erase handle
        released := if w.admits then w.released + 1 else w.released } := by
  rcases outcome with e | handle | handle
  · rfl
  · rfl
  · exact absurd rfl (hunopened handle)

/-- What is quiet leaves a world settled. -/
theorem Settled.quiet (h : w.Settled leaked)
    (hquiet : Quiet (w.targets + leaked) w.session s) :
    Settled { w with session := s } leaked where
  balanced := hquiet.balanced
  counted := fun ctx hctx => h.counted ctx (hquiet.context ▸ hctx)
  idle := fun hs => h.idle (hquiet.idle hs)

/-- A handle that is dropped where no thread can attach goes from the owned ones to the leaked ones. -/
theorem Settled.leak {handle : Handle} (h : w.Settled leaked) (howned : handle ∈ w.owned)
    (hquiet : Quiet (w.targets + leaked) w.session s) :
    Settled { w with session := s, owned := w.owned.erase handle } (handle.target ::ₘ leaked) := by
  have hkept : w.targets + leaked =
      ((w.owned.erase handle).map (·.target) : List Ref) + handle.target ::ₘ leaked := by
    rw [targets_erase howned, Multiset.cons_add, Multiset.add_cons]
  refine ⟨hkept ▸ hquiet.balanced, ?_, fun hs => ?_⟩
  · intro ctx hctx
    obtain ⟨hcount, hpromoted⟩ := h.counted ctx (hquiet.context ▸ hctx)
    exact ⟨hkept ▸ hcount, hpromoted⟩
  · -- an idle world owns nothing that could be dropped
    obtain ⟨hnone, _⟩ := h.idle (hquiet.idle hs)
    exact absurd (hnone ▸ howned) List.not_mem_nil

/-- A context that begins has no handles yet, and neither has the world. -/
theorem Settled.began (h : w.Settled leaked) (hbegan : Began w.session s) :
    Settled { w with session := s } 0 := by
  obtain ⟨howned, _, hpromoted, hreleased⟩ := h.idle hbegan.idle
  obtain ⟨ctx, hctx, hnone⟩ := hbegan.counted
  have htargets : w.targets + 0 = 0 := by
    rw [targets, howned]
    rfl
  refine ⟨?_, ?_, fun hs => ?_⟩
  · show Balanced s (w.targets + 0)
    rw [htargets]
    exact hbegan.balanced
  · intro ctx' hctx'
    obtain rfl := Option.some.inj (hctx.symm.trans hctx')
    show ctx.liveHandles = (w.targets + 0).card ∧ ctx.liveHandles + w.released = w.promoted
    rw [htargets, hnone, hpromoted, hreleased]
    exact ⟨rfl, rfl⟩
  · exact absurd (hbegan.phase.symm.trans hs) nofun

/-- A handle that was opened is owned from then on. -/
theorem Settled.gained {handle : Handle} (h : w.Settled leaked)
    (hgained : Gained (w.targets + leaked) w.session handle s) :
    Settled { w with session := s, owned := handle :: w.owned, promoted := w.promoted + 1 }
      leaked := by
  obtain ⟨ctx, hctx, hctx'⟩ := hgained.counted
  obtain ⟨hcount, hpromoted⟩ := h.counted ctx hctx
  -- the new handle is one more of those that are owned
  have htargets : handle.target ::ₘ (w.targets + leaked) =
      (((handle :: w.owned).map (·.target) : List Ref) : Multiset Ref) + leaked := by
    rw [← Multiset.cons_add]
    rfl
  refine ⟨htargets ▸ hgained.balanced, ?_, fun hs => ?_⟩
  · intro ctx'' hctx''
    obtain rfl := Option.some.inj (hctx'.symm.trans hctx'')
    show ctx.liveHandles + 1 = (((handle :: w.owned).map (·.target) : List Ref) + leaked).card ∧
      ctx.liveHandles + 1 + w.released = w.promoted + 1
    rw [← htargets, Multiset.card_cons, hcount]
    exact ⟨rfl, by omega⟩
  · -- there was a context, so the runtime was up
    have hrunning := (h.balanced.up ctx hctx).phase
    exact absurd (hrunning.symm.trans (hgained.idle hs)) nofun

/-- A handle that was given back is neither owned nor kept. -/
theorem Settled.lost {handle : Handle} (h : w.Settled leaked) (howned : handle ∈ w.owned)
    (hlost : Lost (w.targets + leaked) w.session handle s) :
    Settled { w with
      session := s
      owned := w.owned.erase handle
      released := w.released + 1 } leaked := by
  obtain ⟨ctx, hctx, hctx'⟩ := hlost.counted
  obtain ⟨hcount, hpromoted⟩ := h.counted ctx hctx
  -- the dropped handle is taken out of those that are owned
  have hkept : w.targets + leaked = handle.target ::ₘ
      (((w.owned.erase handle).map (·.target) : List Ref) + leaked) := by
    rw [targets_erase howned, Multiset.cons_add]
  refine ⟨hlost.balanced _ hkept, ?_, fun hs => ?_⟩
  · intro ctx'' hctx''
    obtain rfl := Option.some.inj (hctx'.symm.trans hctx'')
    rw [hkept, Multiset.card_cons] at hcount
    show ctx.liveHandles - 1 = (((w.owned.erase handle).map (·.target) : List Ref) + leaked).card ∧
      ctx.liveHandles - 1 + (w.released + 1) = w.promoted
    omega
  · have hrunning := (h.balanced.up ctx hctx).phase
    exact absurd (hrunning.symm.trans (hlost.idle hs)) nofun

/-- The end of a context leaves the targets that are still kept to nobody. -/
theorem Settled.ended (hended : Ended (w.targets + leaked) w.session s) :
    Settled { w with session := s } leaked where
  balanced := hended.balanced
  counted := fun _ hctx => absurd (hended.context.symm.trans hctx) nofun
  idle := fun hs => absurd (hended.phase.symm.trans hs) nofun

/-- **Every act preserves the invariant.** -/
theorem settled_after (h : w.Settled leaked) (hallowed : w.Allows act)
    (heffect : Effect (w.targets + leaked) w.session act outcome s) :
    ∃ leaked', (w.after act outcome s).Settled leaked' := by
  cases heffect with
  | quiet hquiet hunopened hundropped =>
    by_cases hact : ∃ thread handle, act = .dropHandle thread handle
    · obtain ⟨thread, handle, rfl⟩ := hact
      -- the drop changed nothing, so no thread could attach
      have hrefused : w.admits = false := by
        rw [admits, Bool.and_eq_false_iff]
        by_contra hboth
        simp only [not_or, Bool.not_eq_false] at hboth
        exact hundropped hboth
      rw [after_dropHandle hunopened, hrefused]
      exact ⟨_, h.leak (hallowed handle rfl) hquiet⟩
    · rw [after_quiet (fun thread handle hsame => hact ⟨thread, handle, hsame⟩) hunopened]
      exact ⟨leaked, h.quiet hquiet⟩
  | began hbegan => exact ⟨0, h.began hbegan⟩
  | gained hgained hopens =>
    rw [after_opened hopens]
    exact ⟨leaked, h.gained hgained⟩
  | lost hcontext hadmits hlost =>
    rename_i thread handle
    have hadmits : w.admits = true := by
      rw [admits, hcontext, hadmits]
      rfl
    have hunopened : ∀ opened, (.ok none : Outcome) ≠ .ok (some opened) := nofun
    rw [after_dropHandle hunopened, hadmits]
    exact ⟨leaked, h.lost (hallowed handle rfl) hlost⟩
  | ended _ hended => exact ⟨leaked, .ended hended⟩

/-! ## Reachable worlds -/

/-- An act that is allowed in a settled world has its effect. -/
theorem Settled.within_run (h : w.Settled leaked) (hallowed : w.Allows act) :
    Within act.run (Effect (w.targets + leaked) w.session act) w.session :=
  Session.within_run h.balanced fun handle hneeds =>
    Multiset.mem_add.mpr (.inl (mem_targets (hallowed handle hneeds)))

/-- An act that ended in a value has its effect. -/
theorem Settled.effect (h : w.Settled leaked) (hgoes : w.Goes act outcome w')
    (hrange : InRange w'.session) :
    Effect (w.targets + leaked) w.session act outcome w'.session := by
  have hleaves : Leaves act.run InRange w.session := by
    unfold Leaves
    rw [hgoes.ran]
    exact hrange
  obtain ⟨outcome', s', hran, heffect⟩ := h.within_run hgoes.allowed hleaves
  obtain ⟨houtcome, hs⟩ := Prod.mk.inj (hgoes.ran.symm.trans hran)
  rw [Except.ok.inj houtcome, hs]
  exact heffect

theorem Goes.inRange (h : w.Goes act outcome w') (hrange : InRange w'.session) :
    InRange w.session := by
  have hgrows : Grows act.run := grows_run
  -- numbers only go up, so in range afterwards means in range before
  refine hgrows.inRange ?_
  unfold Leaves
  rw [h.ran]
  exact hrange

/-- A settled world goes on to a settled world. -/
theorem Settled.goes (h : w.Settled leaked) (hgoes : w.Goes act outcome w')
    (hrange : InRange w'.session) : ∃ leaked', w'.Settled leaked' := by
  rw [hgoes.after]
  exact settled_after h hgoes.allowed (h.effect hgoes hrange)

/-- **Every reachable world is settled.** -/
theorem settled_of_reachable (h : w.Reachable) (hrange : InRange w.session) :
    ∃ leaked, w.Settled leaked := by
  obtain ⟨s, hfresh, hreaches⟩ := h
  induction hreaches with
  | refl => exact ⟨0, settled_of_fresh hfresh⟩
  | step hbefore hgoes ih =>
    obtain ⟨leaked, hsettled⟩ := ih (hgoes.inRange hrange)
    exact hsettled.goes hgoes hrange

end World

end GridBridge.Session
