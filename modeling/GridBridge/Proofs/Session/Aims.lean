import GridBridge.Proofs.Session.Crew

/-!
# Where handles lead

An opening makes a reference to an object durable and hands it out in a handle of that object's class. A
reference keeps to its object for as long as numbers do not come round, so a handle that is owned leads
to a cache or to a processor, as its class says, whatever users and workers have done since
(**`aims_of_reachable`**).
-/

namespace GridBridge.Bridge

open Managed

variable {handle : Handle} {rt rt' : Runtime}

theorem Handle.Aims.since (h : handle.Aims rt) (hsince : rt.refs.Since rt'.refs) :
    handle.Aims rt' := by
  obtain ⟨object, hmarks, hisTarget⟩ := h
  exact ⟨object, hmarks.since hsince, hisTarget⟩

theorem Handle.Aims.of_refs (h : handle.Aims rt) (hsame : rt'.refs = rt.refs) : handle.Aims rt' :=
  h.since (hsame ▸ .refl)

/-- No call turns a handle to another object. -/
theorem durable_aims (handle : Handle) :
    Durable fun rt => rt.refs.next ≤ 2 ^ 64 → handle.Aims rt where
  -- while the tokens last, a new one is never one that was given out
  made object kind h hroom := (h (Nat.le_of_succ_le hroom)).since (.made .refl hroom object kind)
  returned hremoved h hroom :=
    (h (RefTable.next_remove hremoved ▸ hroom)).since (RefTable.Since.of_remove hremoved)
  beside _ _ _ h := h
  bound _ h := h
  changed hchange h hroom := (h (hchange.calm.refs ▸ hroom)).of_refs hchange.calm.refs
  launched thread args h hroom := by
    rename_i rt
    have hsame : (rt.launch thread args).2.refs = rt.refs := by
      rcases rt.launch_cases thread args with ⟨_, _, hcalm⟩ | ⟨_, _, hrefs, _⟩
      · exact hcalm.refs
      · exact hrefs
    exact (h (hsame ▸ hroom)).of_refs hsame
  attached thread h hroom := by
    rename_i rt
    have hsame := (Runtime.calm_attach rt thread).refs
    exact (h (hsame ▸ hroom)).of_refs hsame
  destroyed h hroom := by
    rename_i rt
    have hsame := rt.destroy_spec.1
    exact (h (hsame ▸ hroom)).of_refs hsame

end GridBridge.Bridge

namespace GridBridge.Session

open Protocol Seam Bridge Managed Relay

variable {α : Type} {thread : ThreadId} {s s' : Session} {kept : Multiset Ref} {act : Act}
  {outcome : Outcome} {n : Nat} {handle : Handle}

theorem lasting_aims (handle : Handle) : Lasting fun s => InRange s → handle.Aims s.runtime where
  beside h hruntime _ := by
    unfold InRange
    rw [hruntime]
    exact h
  answered _ _ h := leaves_answer (durable_aims handle) h
  switched change h := by cases change <;> exact h
  worked h hwork hinRange := by
    have hsame := (calm_work hwork).refs
    refine (h ?_).of_refs hsame
    unfold InRange at hinRange ⊢
    exact hsame ▸ hinRange

/-! ## Openings -/

/-- If the step ends in a handle, then one that leads to an object of its class. -/
def OpensAimed (x : Step (Except BridgeError α)) (handle : α → Handle) (s : Session) : Prop :=
  Partly x (fun outcome s' => ∀ opened, outcome = .ok opened → (handle opened).Aims s'.runtime) s

section Openings

variable {operation : Operation α} {opened : α → Handle}

theorem opensAimed_openOn
    (hop : Operation.wp (silent thread) operation (fun value rt' => (opened value).Aims rt')
      (fun _ _ => True) s.runtime) (hs : Untapped s) :
    OpensAimed (openOn thread operation) opened s := by
  refine partly_bind (fun outcome => ?_) ((partly_silent hop hs).mono ?_)
  · cases outcome with
    | ok _ => exact grows_bind (grows_modify fun _ => rfl) fun _ => grows_pure
    | error _ => exact grows_pure
  · rintro (e | value) s' ⟨hended, -⟩
    · exact partly_pure nofun
    · refine partly_bind (fun _ => grows_pure) (partly_modify (partly_pure ?_))
      rintro _ ⟨⟩
      exact hended

theorem opensAimed_opening {x : Step (Except BridgeError α)} (h : OpensAimed x opened s) :
    Partly (Act.opening opened x) (fun outcome s' => ∀ handle, outcome = .ok (some handle) →
      handle.Aims s'.runtime) s := by
  refine partly_bind (fun _ => grows_pure) (h.mono fun outcome s' haims => partly_pure ?_)
  cases outcome with
  | error e => exact nofun
  | ok value =>
    rintro _ ⟨⟩
    exact haims value rfl

/-- An act that opens something on the context of its thread. -/
theorem opensAimed_onContext {operation : Context → Operation α}
    (h : ∀ ctx, contextOn thread s = some ctx → OpensAimed (openOn thread (operation ctx)) opened s) :
    Partly (Act.onContext thread fun ctx => Act.opening opened (openOn thread (operation ctx)))
      (fun outcome s' => ∀ handle, outcome = .ok (some handle) → handle.Aims s'.runtime) s := by
  refine partly_get ?_
  cases hctx : contextOn thread s with
  | none => exact partly_pure nofun
  | some ctx => exact opensAimed_opening (h ctx hctx)

end Openings

theorem Balanced.found_contextOn (h : Balanced s kept) {ctx : Context}
    (hctx : contextOn thread s = some ctx) : Found ctx.descriptors := by
  obtain ⟨ctx', hctx', hsame⟩ := descriptors_of_contextOn hctx
  obtain ⟨classes, hbound, _⟩ := (h.up ctx' hctx').bound
  exact hsame ▸ hbound.methods trivial

/-- **A handle that an act opens** leads to an object of its class. -/
theorem Balanced.partly_opens_aimed (h : Balanced s kept) (hquiet : s.runtime.outbox = [])
    (hopens : act.Opens) (hneeds : ∀ handle, act.needs = some handle → handle.target ∈ kept) :
    Partly act.run (fun outcome s' => ∀ handle, outcome = .ok (some handle) →
      handle.Aims s'.runtime) s := by
  have hunderway := h.underway hquiet
  -- three acts open a handle, and each promotes what it was just given
  cases act with
  | openInstance thread configPath name =>
    refine opensAimed_onContext fun ctx hctx => opensAimed_openOn ?_ h.untapped
    exact Instance.wp_start_underway (h.found_contextOn hctx) (hunderway thread)
      (fun _ _ haims => haims)
      (fun _ _ _ _ => trivial) fun _ _ _ _ _ => trivial
  | findInstance thread name =>
    refine opensAimed_onContext fun ctx hctx => opensAimed_openOn ?_ h.untapped
    exact Instance.wp_find_underway (h.found_contextOn hctx) (hunderway thread) (fun _ _ haims => haims)
      (fun _ _ _ _ _ => trivial) fun _ _ _ _ => trivial
  | openCache thread source name =>
    refine partly_get (opensAimed_opening (opensAimed_openOn ?_ h.untapped))
    cases hctx : contextOn thread s with
    | none => exact Operation.wp_bind.mpr trivial
    | some ctx =>
      obtain ⟨ctx', hctx', _⟩ := descriptors_of_contextOn hctx
      -- the source is owned, so its reference is alive
      have hmem : source.handle.target ∈ s.runtime.refs.tokens .globalRef := by
        rw [(h.up ctx' hctx').globals]
        exact Multiset.mem_add.mpr (.inl (hneeds source.handle rfl))
      obtain ⟨object, _, hmarks⟩ := h.sound.marks_of_mem hmem
      exact Instance.wp_cache_underway (h.found_contextOn hctx) (hunderway thread) hmarks
        (fun _ _ haims => haims) (fun _ _ _ _ => trivial) fun _ _ _ _ _ _ _ => trivial
  | _ => exact hopens.elim

/-! ## Crews -/

/-- Every handle that is owned leads to an object of its class. -/
def World.Aimed (w : World) : Prop := ∀ handle ∈ w.owned, handle.Aims w.session.runtime

/-- An act that opens nothing adds no handle. -/
theorem World.owned_after {w : World} (hunopened : ∀ handle, outcome ≠ .ok (some handle)) :
    (w.after act outcome s).owned ⊆ w.owned := by
  by_cases hdrops : ∃ thread handle, act = .dropHandle thread handle
  · obtain ⟨thread, handle, rfl⟩ := hdrops
    rw [after_dropHandle hunopened]
    exact List.erase_subset
  · rw [after_quiet (fun thread handle hsame => hdrops ⟨thread, handle, hsame⟩) hunopened]
    exact List.Subset.refl _

/-- No act breaks this. -/
theorem World.Aimed.goes {w w' : World} {leaked : Multiset Ref} (h : w.Aimed)
    (hsettled : w.Settled leaked) (hquiet : w.session.runtime.outbox = [])
    (hgoes : w.Goes act outcome w') (hinRange : InRange w'.session) : w'.Aimed := by
  have hold (handle : Handle) (howned : handle ∈ w.owned) : handle.Aims w'.session.runtime := by
    refine hgoes.keeps (lasting_aims handle) (fun _ => ?_) hinRange
    rw [act.runtime_begun]
    exact h handle howned
  intro handle howned
  rw [hgoes.after] at howned
  -- without a new handle, those from before still aim where they did
  by_cases hunopened : ∀ handle, outcome ≠ .ok (some handle)
  · exact hold handle (World.owned_after hunopened howned)
  · push Not at hunopened
    obtain ⟨opened, rfl⟩ := hunopened
    cases hsettled.effect hgoes hinRange with
    | quiet _ hunopened _ => exact absurd rfl (hunopened opened)
    | gained hgained hopens =>
      rw [World.after_opened hopens] at howned
      obtain rfl | howned := List.mem_cons.mp howned
      · refine hsettled.balanced.partly_opens_aimed hquiet hopens (fun handle hneeds => ?_) _ _
          hgoes.ran hinRange handle rfl
        exact Multiset.mem_add.mpr (.inl (World.mem_targets (hgoes.allowed handle hneeds)))
      · exact hold handle howned

namespace Crew

variable {c c' : Crew}

theorem aimed_of_works (h : c.world.Aimed) (hworks : Works c c') : c'.world.Aimed := by
  have howned : c'.world.owned = c.world.owned := by cases hworks <;> rfl
  intro handle hmem
  exact (h handle (howned ▸ hmem)).of_refs (refs_of_works hworks)

theorem ReachesIn.aimed (hreaches : ReachesIn n c c') (hstart : Orderly 0 c) (h : c.world.Aimed)
    (hinRange : InRange c'.world.session) : c'.world.Aimed := by
  induction hreaches with
  | refl => exact h
  | acts hbefore hgoes huser halive ih =>
    have horderly := hbefore.orderly hstart (hgoes.inRange hinRange)
    obtain ⟨leaked, hsettled⟩ := horderly.settled
    exact (ih hstart h (hgoes.inRange hinRange)).goes hsettled horderly.received hgoes hinRange
  | works hbefore hworks ih =>
    refine aimed_of_works (ih hstart h ?_) hworks
    unfold InRange at hinRange ⊢
    exact refs_of_works hworks ▸ hinRange

/-- **A handle that is owned** leads to a cache or a processor, as its class says. -/
theorem aims_of_reachable (h : c.ReachableIn n) (hinRange : InRange c.world.session) :
    c.world.Aimed := by
  obtain ⟨s, hunused, htasks, hreaches⟩ := h
  exact hreaches.aimed (orderly_of_unused hunused htasks)
    (fun _ howned => absurd howned List.not_mem_nil)
    hinRange

end Crew

end GridBridge.Session
