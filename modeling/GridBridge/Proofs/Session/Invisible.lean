import GridBridge.Proofs.Session.Accounting
import GridBridge.Proofs.Session.Frame

/-!
# Failures do not show

**`Spared`** says what an act that failed has left of a session: all is as before, but for what is used
up and, where only a reference could not be made durable, for an empty cache or an instance without
caches. **`World.failed_act_does_not_show`** says so of every act that fails on a live context, in every
world that is reached from a session at its beginning, and that an instance that was left running is
found from then on.
-/

namespace GridBridge.Session

open Protocol Seam Bridge Managed Relay

variable {thread : ThreadId} {s s' : Session} {act : Act} {e : BridgeError} {kept : Multiset Ref}
  {n : Nat} {outcome : Outcome}

/-! ## What is left of a session -/

/-- The name of the instance that an act leaves running when it fails. -/
def Act.leftRunning : Act → BridgeError → Option (Option String)
  | .openInstance _ _ name, .promotion _ => some (Instance.wireName name)
  | _, _ => none

/-- What an act that failed has used up, and what was written down of it. -/
structure UsedUp (act : Act) (s s' : Session) : Prop where
  references : s.runtime.refs.next ≤ s'.runtime.refs.next
  calls : s'.relay.nextCall = (act.counted s).relay.nextCall
  attached : s'.runtime.attached = s.runtime.attached ∨
    ∃ thread, act.thread? = some thread ∧ thread ∉ s.runtime.attached ∧
      s'.runtime.attached = thread :: s.runtime.attached
  described : s.runtime.described ≤ s'.runtime.described
  messageFaults : s.runtime.faults.messageFaults.Spends s'.runtime.faults.messageFaults
  globalRefFaults : s.runtime.faults.globalRefFaults.Spends s'.runtime.faults.globalRefFaults
  lines : s.tap.lines <:+ s'.tap.lines
  reported : s.reported <+: s'.reported

/-- **What an act that failed leaves of a session.** -/
structure Spared (act : Act) (e : BridgeError) (s s' : Session) : Prop where
  /-- Around the runtime nothing has changed but the number of the next call and what is written down. -/
  around : s' = { s with
    runtime := s'.runtime
    relay := { s.relay with nextCall := s'.relay.nextCall }
    tap := { s.tap with lines := s'.tap.lines }
    reported := s'.reported }
  /-- In the runtime nothing has changed but the number of the next reference, the threads that are
  attached, the count of exceptions in the log, faults that were injected, and the grid. -/
  inside : s'.runtime = { s.runtime with
    refs := { s.runtime.refs with next := s'.runtime.refs.next }
    attached := s'.runtime.attached
    described := s'.runtime.described
    faults := { s.runtime.faults with
      messageFaults := s'.runtime.faults.messageFaults
      globalRefFaults := s'.runtime.faults.globalRefFaults }
    grid := s'.runtime.grid }
  clear : ∀ thread, s'.runtime.pending? thread = none
  usedUp : UsedUp act s s'
  /-- In the grid there is an empty cache or an instance without caches more, at most. -/
  leftover : Leftover s.runtime s'.runtime.grid act e
  unseen : s.runtime.grid.Unseen s'.runtime.grid
  running : ∀ other, s'.runtime.grid.isRunning other = true ↔
    s.runtime.grid.isRunning other = true ∨ act.leftRunning e = some other

/-- Where no thread has an exception there is none. -/
theorem pending_eq_nil {rt : Runtime} (hclear : ∀ thread, rt.pending? thread = none) :
    rt.pending = [] := by
  cases hpending : rt.pending with
  | nil => rfl
  | cons first rest =>
    have hraised := hclear first.1
    unfold Runtime.pending? at hraised
    rw [hpending, List.lookup_cons_self] at hraised
    cases hraised

/-- What is left in the grid does not show in caches or contents. -/
theorem Leftover.unseen {rt : Runtime} {grid : Grid} (h : Leftover rt grid act e) :
    rt.grid.Unseen grid := by
  unfold Leftover at h
  split at h
  · obtain ⟨_, hstopped, rfl⟩ := h
    exact Grid.unseen_start hstopped _
  · obtain ⟨_, _, _, hfound, rfl⟩ := h
    exact Grid.unseen_openCache hfound _
  · rw [h]
    exact .refl _

/-- Only an instance that was left running is running beside the others. -/
theorem Leftover.running {rt : Runtime} {grid : Grid} (h : Leftover rt grid act e)
    (other : Option String) : grid.isRunning other = true ↔
      rt.grid.isRunning other = true ∨ act.leftRunning e = some other := by
  -- an instance, a cache or nothing was left behind, and only the first makes a name run
  unfold Leftover at h
  split at h
  · obtain ⟨_, _, rfl⟩ := h
    rw [Grid.isRunning_start, Bool.or_eq_true, decide_eq_true_eq, or_comm]
    exact or_congr_right ⟨fun hsame => congrArg some hsame.symm,
      fun hsame => (Option.some.inj hsame).symm⟩
  · obtain ⟨_, _, _, _, rfl⟩ := h
    simp [Act.leftRunning, Grid.isRunning_openCache]
  · rename_i hunmade _
    rw [h]
    have hnone : act.leftRunning e = none := by
      unfold Act.leftRunning
      split
      · exact (hunmade _ _ _ _ rfl rfl).elim
      · rfl
    simp [hnone]

/-- What is left of a session that was in balance before and is so again. -/
theorem Balanced.spared (h : Balanced s kept) (hquiet : Quiet kept s s')
    (hremains : Remains act e s.runtime s'.runtime) (haside : Aside (act.counted s) s') :
    Spared act e s s' := by
  obtain ⟨hleftover, thread, hon, htouched⟩ := hremains
  have htap : (act.counted s).tap = s.tap := by cases act <;> rfl
  have hreported : (act.counted s).reported = s.reported := by cases act <;> rfl
  have hnextCall : s'.relay.nextCall = (act.counted s).relay.nextCall := by rw [haside.same]
  -- the references are those from before, since their tokens are
  have hrefs : s'.runtime.refs = { s.runtime.refs with next := s'.runtime.refs.next } := by
    have hlive : s'.runtime.refs.live = s.runtime.refs.live := by
      refine htouched.refs.live_eq h.sound fun kind => ?_
      cases kind with
      | localRef => exact hquiet.balanced.locals.trans h.locals.symm
      | globalRef => exact hquiet.globals
    exact congrArg (RefTable.mk · s'.runtime.refs.next) hlive
  -- nothing was pending before, and nothing is now
  have hpending : s'.runtime.pending = s.runtime.pending := by
    rw [pending_eq_nil hquiet.balanced.clear, pending_eq_nil h.clear]
  refine ⟨?_, ?_, hquiet.balanced.clear, ?_, hleftover, hleftover.unseen, hleftover.running⟩
  · rw [hnextCall]
    refine haside.same.trans ?_
    cases act <;> rfl
  · refine htouched.same.trans ?_
    rw [hpending]
    congr 1
  · exact {
      references := htouched.refs.next_le
      calls := hnextCall
      attached := by
        obtain hsame | ⟨hnew, hattached⟩ := htouched.attached
        · exact .inl hsame
        · exact .inr ⟨thread, hon, hnew, hattached⟩
      described := htouched.described
      messageFaults := htouched.messages
      globalRefFaults := htouched.globals
      lines := htap ▸ haside.lines
      reported := hreported ▸ haside.reported }

/-! ## What lasts -/

/-- Between acts no completion waits to be received. -/
theorem lasting_received : Lasting fun s => s.runtime.outbox = [] where
  beside h hruntime _ := by rw [hruntime]; exact h
  answered _ _ _ := rfl
  switched change h := by cases change <;> exact h
  worked _ _ := rfl

/-- Numbers of calls last until one more is begun. -/
theorem lasting_numbered (n : Nat) : Lasting fun s => Numbered n s.relay where
  beside h _ hsheds := h.sheds hsheds
  answered _ _ h := h
  switched _ h := h
  worked h _ := h

/-- An instance that runs goes on running, until its runtime is destroyed. -/
theorem lasting_runs (name : Option String) : Lasting fun s => Runs name s.runtime where
  beside h hruntime _ := by rw [hruntime]; exact h
  answered _ _ h := leaves_answer (durable_runs name) h
  switched change h := by cases change <;> exact h
  worked h hwork := h.of_grid (calm_work hwork).phase (isRunning_work hwork)

namespace World

variable {w w' w'' : World} {leaked : Multiset Ref}

/-- An act keeps what lasts. -/
theorem Goes.keeps {P : Session → Prop} (hgoes : w.Goes act outcome w') (hlasting : Lasting P)
    (h : P (act.begun w.session)) : P w'.session := by
  have hleaves := hlasting.leaves_run h
  unfold Leaves at hleaves
  rw [hgoes.ran] at hleaves
  exact hleaves

/-- So do acts in a row. -/
theorem Reaches.keeps {P : Session → Prop} (hreaches : w.Reaches w') (hlasting : Lasting P)
    (hbegun : ∀ (act : Act) (s : Session), P s → P (act.begun s)) (h : P w.session) :
    P w'.session := by
  induction hreaches with
  | refl => exact h
  | step _ hgoes ih => exact hgoes.keeps hlasting (hbegun _ _ ih)

/-! ## Worlds by the number of their calls -/

/-- A session at its beginning that was not used for anything yet. -/
structure Unused (s : Session) : Prop extends Fresh s where
  relay : s.relay = {}
  outbox : s.runtime.outbox = []

/-- One world comes after another one, act by act, and so many calls are issued on the way. -/
inductive ReachesIn : Nat → World → World → Prop where
  | refl (w : World) : ReachesIn 0 w w
  | step {n : Nat} {w w' w'' : World} {act : Act} {outcome : Outcome} (hbefore : ReachesIn n w w')
      (hgoes : w'.Goes act outcome w'') : ReachesIn (n + act.calls) w w''

/-- A world that a session comes to from its beginning, issuing so many calls. -/
def ReachableIn (n : Nat) (w : World) : Prop := ∃ s, Unused s ∧ ReachesIn n { session := s } w

/-- Worlds come after each other, whatever is counted on the way. -/
theorem ReachesIn.reaches (h : ReachesIn n w w') : w.Reaches w' := by
  induction h with
  | refl w => exact .refl w
  | step _ hgoes ih => exact ih.step hgoes

/-- A world that is reached in some number of calls is reached. -/
theorem ReachableIn.reachable (h : w.ReachableIn n) : w.Reachable := by
  obtain ⟨s, hunused, hreaches⟩ := h
  exact ⟨s, hunused.toFresh, hreaches.reaches⟩

/-- The call of an act is counted when it is registered. -/
theorem numbered_begun (h : Numbered n s.relay) (hroom : n + act.calls < 2 ^ 64) :
    Numbered (n + act.calls) (act.begun s).relay := by
  cases act with
  | issue thread handle op input loop reaction => exact h.begin hroom loop reaction
  | _ => exact h

/-- The numbers of the calls that a world holds are those of the calls that were issued. -/
theorem ReachesIn.numbered (h : ReachesIn n w w') (hfresh : Numbered 0 w.session.relay)
    (hroom : n < 2 ^ 64) : Numbered n w'.session.relay := by
  induction h with
  | refl => exact hfresh
  | step hbefore hgoes ih =>
    have hnumbered := ih hfresh (Nat.lt_of_le_of_lt (Nat.le_add_right ..) hroom)
    exact hgoes.keeps (lasting_numbered _) (numbered_begun hnumbered hroom)

/-- So the next number is not held in any world that is reached. -/
theorem ReachableIn.numbered (h : w.ReachableIn n) (hroom : n < 2 ^ 64) :
    Numbered n w.session.relay := by
  obtain ⟨s, hunused, hreaches⟩ := h
  refine hreaches.numbered ?_ hroom
  rw [hunused.relay]
  exact numbered_fresh

/-- Between acts all completions were received. -/
theorem ReachableIn.received (h : w.ReachableIn n) : w.session.runtime.outbox = [] := by
  obtain ⟨s, hunused, hreaches⟩ := h
  refine hreaches.reaches.keeps lasting_received (fun act s h => ?_) hunused.outbox
  cases act <;> exact h

/-! ## An instance that was left running -/

/-- Whoever looks for an instance of this name finds it, in every world that comes after this one and has
its context still, unless a fault is injected: threads that may not attach, or a reference that may not
be made durable. -/
def Finds (w : World) (name : String) : Prop :=
  ∀ w', w.Reaches w' → w'.session.context.isSome = true →
    w'.session.runtime.faults.refuseAttach = false →
    w'.session.runtime.faults.globalRefFaults = .count 0 →
    ∀ thread, Leaves (Act.findInstance thread name).run InRange w'.session →
      ∃ handle w'', w'.Goes (.findInstance thread name) (.ok (some handle)) w''

/-- What opens something and does not fail ends with its handle. -/
theorem partly_opening {α : Type} {handle : α → Handle} {x : Step (Except BridgeError α)}
    (h : Fails x (fun _ _ => False) s) :
    Partly (Act.opening handle x) (fun outcome _ => ∃ handle, outcome = .ok (some handle)) s := by
  refine partly_bind (fun _ => grows_pure) (h.mono fun outcome s' hfailed => partly_pure ?_)
  cases outcome with
  | ok opened => exact ⟨_, rfl⟩
  | error e => exact (hfailed e rfl).elim

/-- An instance that runs is found, if threads may attach and references be made durable. -/
theorem Settled.partly_findInstance (h : w.Settled leaked) (hlive : w.session.context.isSome = true)
    (hreceived : w.session.runtime.outbox = []) {name : String}
    (hpasses : Passes (Instance.wireName name))
    (hruns : Runs (Instance.wireName name) w.session.runtime)
    (hattaches : w.session.runtime.faults.refuseAttach = false)
    (hdurable : w.session.runtime.faults.globalRefFaults = .count 0) (thread : ThreadId) :
    Partly (Act.findInstance thread name).run (fun outcome _ => ∃ handle, outcome = .ok (some handle))
      w.session := by
  obtain ⟨ctx, hctx⟩ := Option.isSome_iff_exists.mp hlive
  have hphase : w.session.runtime.phase = .running := (h.balanced.up ctx hctx).phase
  -- a context is there, so the runtime was not destroyed meanwhile
  have hrunning : w.session.runtime.grid.isRunning (Instance.wireName name) = true := by
    rcases hruns with hdestroyed | ⟨_, hrunning⟩
    · exact absurd (hphase.symm.trans hdestroyed) nofun
    · exact hrunning
  have hadmits : w.session.runtime.admits = true := by
    rw [Runtime.admits, hphase, hattaches]
    rfl
  obtain ⟨ctx', hctx', hmethods⟩ := h.balanced.exists_contextOn hlive thread
  have hop : Operation.wp (silent thread) (Instance.find ctx' name) (fun _ _ => True)
      (fun _ _ => False) w.session.runtime :=
    Instance.wp_find_underway hmethods (h.balanced.underway hreceived thread) (fun _ _ _ => trivial)
      (fun hrefused => absurd ⟨hadmits, hpasses, hrunning⟩ hrefused)
      fun harmed => absurd hdurable harmed
  refine partly_get ?_
  rw [hctx']
  exact partly_opening ((fails_openOn hop h.balanced.untapped).mono fun _ _ hfails e hfailed =>
    (hfails e hfailed).1)

/-- **An instance that runs is found from then on.** -/
theorem finds_of_runs (h : w.Reachable) (hreceived : w.session.runtime.outbox = []) {name : String}
    (hpasses : Passes (Instance.wireName name))
    (hruns : Runs (Instance.wireName name) w.session.runtime) : w.Finds name := by
  intro w' hreaches hlive hattaches hdurable thread hroom
  have hgrows : Grows (Act.findInstance thread name).run := grows_run
  obtain ⟨leaked, hsettled⟩ := settled_of_reachable (h.reaches hreaches) (hgrows.inRange hroom)
  -- what lasts: nothing waits to be received, and the instance runs
  have hreceived' := hreaches.keeps lasting_received (fun act s h => by cases act <;> exact h) hreceived
  have hruns' := hreaches.keeps (lasting_runs _) (fun act s h => by cases act <;> exact h) hruns
  have hallowed : w'.Allows (.findInstance thread name) := nofun
  obtain ⟨outcome, s, hran, _⟩ := hsettled.within_run hallowed hroom
  -- the act ends, so it ends with this outcome, and in range
  have hinRange : InRange s := by
    unfold Leaves at hroom
    rw [hran] at hroom
    exact hroom
  obtain ⟨handle, rfl⟩ := hsettled.partly_findInstance hlive hreceived' hpasses hruns' hattaches
    hdurable thread
    outcome s hran hinRange
  exact ⟨handle, w'.after _ _ s, hallowed, hran, rfl⟩

/-! ## Failures do not show -/

/-- **What a failure comes to**: the session is spared, and an instance that was left running is found. -/
structure Invisible (act : Act) (e : BridgeError) (w w' : World) : Prop where
  spared : Spared act e w.session w'.session
  found : ∀ thread configPath name fault, act = .openInstance thread configPath name →
    e = .promotion fault → w'.Finds name

/-- **An act that fails on a live context does not show**, in every world that is reached from a session
at its beginning, with the widths of tokens and of call numbers as its bounds. -/
theorem failed_act_does_not_show (h : w.ReachableIn n) (hroom : n + act.calls < 2 ^ 64)
    (hlive : w.session.context.isSome = true) (hgoes : w.Goes act (.error e) w')
    (hinRange : InRange w'.session) : Invisible act e w w' := by
  obtain ⟨leaked, hsettled⟩ := settled_of_reachable h.reachable (hgoes.inRange hinRange)
  have hquiet := hsettled.quiet_of_error hgoes hinRange
  have hreceived : w'.session.runtime.outbox = [] := by
    refine hgoes.keeps lasting_received ?_
    cases act <;> exact h.received
  -- the acts so far have begun as many calls as were counted
  have hnumbered := h.numbered (Nat.lt_of_le_of_lt (Nat.le_add_right ..) hroom)
  have hneeds : ∀ handle, act.needs = some handle → handle.target ∈ w.targets + leaked :=
    fun handle hneeded => Multiset.mem_add.mpr (.inl (mem_targets (hgoes.allowed handle hneeded)))
  obtain ⟨hremains, haside⟩ := hsettled.balanced.fails_run hlive h.received hnumbered hroom hneeds
    (.error e) w'.session hgoes.ran hinRange e rfl
  refine ⟨hsettled.balanced.spared hquiet hremains haside, ?_⟩
  rintro thread configPath name fault rfl rfl
  obtain ⟨hpasses, _, hgrid⟩ := hremains.leftover
  obtain ⟨ctx, hctx⟩ := Option.isSome_iff_exists.mp hlive
  have hphase := (hquiet.balanced.up ctx (hquiet.context.trans hctx)).phase
  refine finds_of_runs (h.reachable.reaches (.step (.refl w) hgoes)) hreceived hpasses
    (.inr ⟨hphase, ?_⟩)
  rw [hgrid, Grid.isRunning_start, decide_eq_true rfl, Bool.true_or]

/-- A world whose next durable reference is refused. -/
def refusing : World := started.next (.switch (.failGlobals (.count 1))) (.ok none)

/-- The fault of an instance that was started and whose reference was refused. -/
def exhausted : BridgeError :=
  .promotion { message := "Java heap space", className := some "java.lang.OutOfMemoryError" }

theorem refusing_does_not_show :
    let act : Act := .openInstance 0 "/c" "grid"
    let left := refusing.next act (.error exhausted)
    refusing.ReachableIn 0 ∧ 0 + act.calls < 2 ^ 64 ∧ refusing.session.context.isSome = true ∧
      refusing.Goes act (.error exhausted) left ∧ InRange left.session ∧
      Invisible act exhausted refusing left := by
  intro act left
  have hstarted : Goes { session := unstarted } (.start 0 Context.plainArgs false) (.ok none)
      started := goes_next nofun (by decide +kernel)
  have hrefusing : started.Goes (.switch (.failGlobals (.count 1))) (.ok none) refusing :=
    goes_next nofun rfl
  have hreachable : refusing.ReachableIn 0 :=
    ⟨unstarted, ⟨⟨rfl, rfl, rfl, rfl, rfl, rfl⟩, rfl, rfl⟩, .step (.step (.refl _) hstarted) hrefusing⟩
  have hgoes : refusing.Goes act (.error exhausted) left := goes_next nofun (by decide +kernel)
  have hlive : refusing.session.context.isSome = true := by decide +kernel
  have hinRange : InRange left.session := by
    unfold InRange
    decide +kernel
  exact ⟨hreachable, by decide, hlive, hgoes, hinRange,
    failed_act_does_not_show hreachable (by decide) hlive hgoes hinRange⟩

end World

end GridBridge.Session
