import GridBridge.Proofs.Session.Crew
import GridBridge.Proofs.Session.Run
import GridBridge.Proofs.Session.Signals

/-!
# Drains of a session

A reaction of a session may issue a put on its cache, and it lets go of the cache when it is done. It
returns if the cache is still kept, which a session sees to as long as the reaction waits: a cache is
released only when no waiting reaction needs it. So the reactions that come up do what a drain asks of
callbacks (**`conducts_react`**), and what is known of drains and runs in general holds of every session
that is reached (**`drainLoop_delivers`**).
-/

namespace GridBridge.Session

open Protocol Seam Bridge Managed Relay

variable {l : LoopId} {n : Nat} {s s' : Session} {kept : Multiset Ref} {reaction : Reaction}
  {completion : Completion}

/-! ## Numbers only go up -/

theorem grows_releaseCache (c : Cache) : Grows (releaseCache c) := by
  refine grows_get fun s => ?_
  split
  · exact fun n => (sturdy_counted n).tolerant.keeps_releaseOn fun _ => .any _
  · exact grows_pure

theorem grows_letGo : Grows (letGo reaction) := by
  unfold letGo
  split
  · exact grows_releaseCache _
  · exact grows_pure

/-- A step that goes on with an outcome has its two cases. -/
theorem grows_outcome {f : Except BridgeError Unit → Step Unit} (hok : Grows (f (.ok ())))
    (herror : ∀ e, Grows (f (.error e))) (outcome : Except BridgeError Unit) : Grows (f outcome) := by
  cases outcome with
  | ok _ => exact hok
  | error e => exact herror e

theorem grows_carryOut : Grows (carryOut reaction completion) := by
  refine grows_bind (grows_modify fun _ => rfl) fun _ => ?_
  cases reaction with
  | note tag => exact grows_pure
  | chain tag cache l put =>
    exact grows_bind grows_issueFrom (grows_outcome grows_pure fun _ => grows_modify fun _ => rfl)

theorem grows_react (reaction : Reaction) (completion : Completion) :
    Grows (react reaction completion) :=
  grows_finally grows_carryOut grows_letGo

theorem grows_deliverNext : Grows (deliverNext relayAccess react l) := by
  unfold deliverNext
  refine grows_bind (grows_get fun s => grows_pure) fun relay => ?_
  split
  · exact grows_pure
  · refine grows_bind (grows_modify fun _ => rfl) fun _ => ?_
    split
    · exact grows_bind (grows_react _ _) fun _ => grows_pure
    · exact grows_pure

theorem grows_drainWithin (limit : Nat) : Grows (drainWithin relayAccess react l limit) := by
  induction limit with
  | zero => exact grows_pure
  | succ limit ih =>
    refine grows_bind grows_deliverNext fun outcome => ?_
    cases outcome with
    | none => exact grows_pure
    | some ran => exact grows_bind ih fun _ => grows_pure

/-! ## The caches that reactions need -/

/-- The cache that a reaction needs is among the handles that are kept. -/
def Provided (kept : Multiset Ref) (reaction : Reaction) : Prop :=
  ∀ c, reaction.cache? = some c → c.handle.cls = .cache ∧ c.handle.target ∈ kept

/-- A cache that is not in use is needed by no reaction that waits. -/
theorem unneeded_of_inUse {c : Cache} (hunused : inUse s c = false) :
    s.relay.EveryCallback fun reaction => ∀ needed, reaction.cache? = some needed →
      needed.handle ≠ c.handle := by
  rintro l w ⟨loop, hfound, hmem⟩ needed hneeds hsame
  obtain ⟨before, after, hsplit, -⟩ := List.lookup_eq_some_iff.mp hfound
  unfold inUse at hunused
  have hwaiting := List.any_eq_false.mp (Bool.or_eq_false_iff.mp hunused).2
  refine hwaiting (l, loop) (by simp [hsplit]) (List.any_eq_true.mpr ⟨w, hmem, ?_⟩)
  simp [hneeds, hsame]

/-- A cache is given back only if no waiting reaction needs it, so those that need one keep theirs. -/
theorem Balanced.within_releaseCache (h : Balanced s kept)
    (hwaiting : s.relay.EveryCallback (Provided kept))
    {c : Cache} (hcls : c.handle.cls = .cache) (hkept : c.handle.target ∈ kept) :
    Within (releaseCache c) (fun _ s' => ∃ kept', Balanced s' kept' ∧
      s.relay.EveryCallback (Provided kept')) s := by
  refine within_get ?_
  cases hused : inUse s c with
  | true => exact within_pure ⟨kept, h, hwaiting⟩
  | false =>
    show Within (releaseOn mainThread c.handle) _ s
    cases hcontext : s.context with
    | none =>
      refine (within_releaseOn_none hcontext).mono ?_
      rintro _ _ rfl
      exact ⟨kept, h, hwaiting⟩
    | some ctx =>
      refine (h.within_releaseOn hcontext hkept).mono fun _ s' hended => ?_
      split at hended
      · obtain ⟨kept', rfl⟩ := Multiset.exists_cons_of_mem hkept
        refine ⟨kept', hended.balanced kept' rfl, fun l w hwaits needed hneeds => ?_⟩
        obtain ⟨hcls', hmem⟩ := hwaiting l w hwaits needed hneeds
        -- handles of one class that differ have different targets
        have hother : needed.handle.target ≠ c.handle.target := by
          intro hsame
          refine unneeded_of_inUse hused l w hwaits needed hneeds ?_
          rw [show needed.handle = ⟨needed.handle.target, needed.handle.cls⟩ from rfl, hsame,
            hcls', ← hcls]
        exact ⟨hcls', (Multiset.mem_cons.mp hmem).resolve_left hother⟩
      · exact ⟨kept, hended.balanced, hwaiting⟩

theorem Balanced.within_letGo (h : Balanced s kept) (hwaiting : s.relay.EveryCallback (Provided kept))
    (hprovided : Provided kept reaction) :
    Within (letGo reaction) (fun _ s' => ∃ kept', Balanced s' kept' ∧
      s.relay.EveryCallback (Provided kept')) s := by
  unfold letGo
  cases hneeds : reaction.cache? with
  | none => exact within_pure ⟨kept, h, hwaiting⟩
  | some c =>
    obtain ⟨hcls, hkept⟩ := hprovided c hneeds
    exact h.within_releaseCache hwaiting hcls hkept

/-! ## Reactions -/

/-- A reaction issues its put through a cache that is kept, and changes nothing that counts. -/
theorem Balanced.within_carryOut (h : Balanced s kept) (hprovided : Provided kept reaction) :
    Within (carryOut reaction completion) (fun _ s' => Balanced s' kept) s := by
  have hnoted {s : Session} (h : Balanced s kept) (tag : Int) : Balanced { s with
      delivered := s.delivered ++ [{ tag, completion }] } kept :=
    h.of_runtime ⟨rfl, rfl, rfl⟩ rfl
  cases reaction with
  | note tag =>
    exact within_bind (fun _ => grows_pure) (within_modify (within_pure (hnoted h tag)))
  | chain tag cache l put =>
    have hrefused (e : BridgeError) : Grows (noteDelivery refusedTag completion) :=
      grows_modify fun _ => rfl
    refine within_bind (fun _ => grows_bind grows_issueFrom (grows_outcome grows_pure hrefused))
      (within_modify (within_bind (grows_outcome grows_pure hrefused) ?_))
    refine ((hnoted h tag).within_issueFrom (hprovided cache rfl).2).mono fun outcome s' hquiet => ?_
    cases outcome with
    | ok _ => exact within_pure hquiet.balanced
    | error e => exact within_modify (hnoted hquiet.balanced refusedTag)

/-- What a reaction issues needs no cache, and what it signals changes no reaction. -/
theorem Did.everyCallback {r : Relay Reaction} {cost : Nat} (h : Did r cost s)
    (hwaiting : r.EveryCallback (Provided kept)) : s.relay.EveryCallback (Provided kept) := by
  obtain ⟨deeds, hrelay, hissues, -⟩ := h
  rw [hrelay]
  refine hwaiting.deeds fun deed hmem => ?_
  have hissue := hissues deed hmem
  cases deed with
  | issue l reaction meanwhile refused =>
    intro c hneeds
    cases hneeds.symm.trans hissue
  | signal id payload => trivial
  | openLoop | dropLoop l => exact hissue.elim

/-- A reaction whose cache is kept returns, and the others have theirs afterwards. -/
theorem Balanced.within_react (h : Balanced s kept) (hwaiting : s.relay.EveryCallback (Provided kept))
    (hprovided : Provided kept reaction) :
    Within (react reaction completion) (fun _ s' => ∃ kept', Balanced s' kept' ∧
      s'.relay.EveryCallback (Provided kept')) s := by
  refine within_finally grows_letGo (((h.within_carryOut hprovided).of_leaves
    (did_carryOut reaction completion s)).mono fun _ s₁ ⟨hcarried, hdid⟩ => ?_)
  refine ((hcarried.within_letGo (hdid.everyCallback hwaiting) hprovided).of_leaves
    ((hears_letGo reaction).leaves s₁)).mono fun _ s₂ ⟨⟨kept', hbalanced, hrest⟩, hheard⟩ => ?_
  exact ⟨kept', hbalanced, hheard.did.everyCallback hrest⟩

/-! ## What a drain relies on -/

/-- A session that a drain of loop `l` goes on from: the caches that reactions need are kept, and the
numbers of references do not come round before the drain is over. -/
structure Drainable (l : LoopId) (s : Session) : Prop where
  keyed : Keyed s.relay
  kept : ∃ kept, Balanced s kept ∧ s.relay.EveryCallback (Provided kept)
  inRange : ∃ limit, drainLimit Reaction.following s.relay ≤ limit ∧
    Leaves (drainWithin relayAccess react l limit) InRange s

section Drainable

variable {id : CallId} {after : Relay Reaction} {claimed : Option (Reaction × Completion)}

/-- A number is left to be taken, so the drain has not come to its limit. -/
theorem Drainable.claim (h : Drainable l s) (hnext : s.relay.claimNext? l = some (id, claimed, after)) :
    Keyed after ∧ ∃ limit, drainLimit Reaction.following after + follows Reaction.following
      claimed ≤ limit ∧
      Leaves (drainWithin relayAccess react l (limit + 1)) InRange s := by
  obtain ⟨limit, hlimit, hrange⟩ := h.inRange
  obtain ⟨loop, -, hfound, -⟩ := claimNext?_eq_some hnext
  obtain ⟨-, -, -, -, hkeyed, hfewer⟩ := claimNext?_spec Reaction.following h.keyed hfound hnext
  cases limit with
  | zero => omega
  | succ limit => exact ⟨hkeyed, limit, by omega, hrange⟩

theorem Drainable.skip (h : Drainable l s) (hnext : s.relay.claimNext? l = some (id, none, after)) :
    Drainable l { s with relay := after } := by
  obtain ⟨hkeyed, limit, hlimit, hrange⟩ := h.claim hnext
  obtain ⟨kept, hbalanced, hwaiting⟩ := h.kept
  have hdelivered : (deliverNext relayAccess react l).run.run s =
      (.ok (some false), { s with relay := after }) := by
    unfold deliverNext
    rw [run_bind_of_ok (faithful_relayAccess.read s), hnext]
    rfl
  refine ⟨hkeyed, ⟨kept, ?_, (hwaiting.claim hnext).1⟩, limit, Nat.le_of_add_right_le hlimit, ?_⟩
  · exact hbalanced.of_runtime ⟨rfl, rfl, rfl⟩ rfl
  · exact inRange_first (fun _ => grows_pure) (hrange.after hdelivered)

/-- The reaction that comes up returns, and the drain can go on from what it leaves. -/
theorem Drainable.serve (h : Drainable l s)
    (hnext : s.relay.claimNext? l = some (id, some (reaction, completion), after)) :
    ∃ s', (react reaction completion).run.run { s with relay := after } = (.ok (), s') ∧
      Drainable l s' ∧ Did after reaction.following s' := by
  obtain ⟨hkeyed, limit, hlimit, hrange⟩ := h.claim hnext
  obtain ⟨kept, hbalanced, hwaiting⟩ := h.kept
  obtain ⟨hwaiting, hprovided⟩ := hwaiting.claim hnext
  have hbalanced : Balanced { s with relay := after } kept :=
    hbalanced.of_runtime ⟨rfl, rfl, rfl⟩ rfl
  have hwritten : (relayAccess.write after).run.run s = (.ok (), { s with relay := after }) := rfl
  -- the numbers are in range after the whole drain, so they are after its first callback
  have hfirst : Leaves (deliverNext relayAccess react l) InRange s := by
    refine inRange_first (fun outcome => ?_) hrange
    cases outcome with
    | none => exact grows_pure
    | some ran => exact grows_bind (grows_drainWithin limit) fun _ => grows_pure
  have hreacts : Leaves (react reaction completion) InRange { s with relay := after } := by
    have hread := hfirst.after (faithful_relayAccess.read s)
    rw [hnext] at hread
    exact inRange_first (fun _ => grows_pure) (hread.after hwritten)
  have hdid := did_react reaction completion { s with relay := after }
  obtain ⟨_, s', hran, hkept⟩ :=
    hbalanced.within_react hwaiting (hprovided reaction completion rfl) hreacts
  replace hdid := hdid.of_run hran
  have hdelivered : (deliverNext relayAccess react l).run.run s = (.ok (some true), s') := by
    unfold deliverNext
    rw [run_bind_of_ok (faithful_relayAccess.read s), hnext]
    simp only []
    rw [run_bind_of_ok hwritten, run_bind_of_ok hran]
    rfl
  have hdisturbed := hdid.disturbed (l := l)
  refine ⟨s', hran, ⟨hdisturbed.keyed hkeyed, hkept, limit, ?_, ?_⟩, hdid⟩
  · have hmore := hdisturbed.limit hkeyed
    exact Nat.le_trans hmore hlimit
  · exact inRange_first (fun _ => grows_pure) (hrange.after hdelivered)

end Drainable

/-- **Reactions are callbacks** as drains ask for them. -/
theorem conducts_react (l : LoopId) :
    Conducts relayAccess (·.relay) Reaction.following react l (Drainable l) where
  skips := by
    intro id after s s₁ h hnext hwrote
    cases hwrote
    exact h.skip hnext
  serves := by
    intro id reaction completion after s s₁ h hnext hwrote _
    cases hwrote
    obtain ⟨s', hran, hdrainable, deeds, hrelay, hissues, hcost⟩ := h.serve hnext
    exact ⟨s', deeds, hran, hdrainable, hrelay, fun deed hmem => (hissues deed hmem).spares l, hcost⟩

/-- **What a drain of a session delivers.** In every session that is reached, on a loop that is alive,
where the user still owns the caches that waiting reactions need: the drain ends in a value, and it has
run the reaction of each waiting call whose number came up, once and in order. If all that waits is in
the queue, and reactions leave behind no call that is not, a run is that drain. Neither the numbers of
references nor those of calls may come round on the way. -/
theorem drainLoop_delivers {c : Crew} (hreach : c.ReachableIn n) (halive : c.relay.Alive l)
    (howned : c.relay.EveryCallback fun reaction => ∀ cache, reaction.cache? = some cache →
      cache.handle.cls = .cache ∧ cache.handle ∈ c.world.owned)
    (hrange : Leaves (drainLoop l) InRange c.world.session)
    (hroom : Room Reaction.following n c.relay) :
    ∃ log s', Drains relayAccess (·.relay) react l c.world.session log s' ∧
      (drainLoop l).run.run c.world.session = (.ok log.length, s') ∧
      InOrder (·.relay) l n c.world.session log s' ∧
      (Signalled (·.relay) l c.world.session log → s'.relay.pending l = 0 ∧
        (run l).run.run c.world.session =
          (.ok (some log.length), if c.relay.pending l = 0 then c.world.session else s')) := by
  have hbound : n < 2 ^ 64 := Nat.lt_of_le_of_lt (Nat.le_add_right ..) hroom
  have hwithin : Leaves (drainWithin relayAccess react l (drainLimit Reaction.following c.relay))
      InRange c.world.session := hrange
  have horderly := Crew.orderly_of_reachable hreach ((grows_drainWithin _).inRange hwithin)
  -- what the world owns is kept, so it is there for the reactions
  obtain ⟨leaked, hsettled⟩ := horderly.settled
  obtain ⟨t, htraffic, hrelay, -, hbegun⟩ := horderly.traffic
  obtain ⟨loop, hfound⟩ := Option.isSome_iff_exists.mp halive
  have hfit := fit_of_reachable htraffic (hbegun ▸ hbound) (hrelay ▸ hfound)
  rw [hbegun, hrelay] at hfit
  have hdrainable : Drainable l c.world.session := by
    refine ⟨hfit.keyed, ⟨_, hsettled.balanced, howned.mono fun reaction hneeds cache hcache => ?_⟩,
      _, Nat.le_refl _, hwithin⟩
    obtain ⟨hcls, hmem⟩ := hneeds cache hcache
    exact ⟨hcls, Multiset.mem_add.mpr (.inl (World.mem_targets hmem))⟩
  obtain ⟨log, s', hdrains, hdrained, hinOrder, -⟩ :=
    drain_inOrder faithful_relayAccess (conducts_react l) hdrainable hfit hroom
  refine ⟨log, s', hdrains, hdrained, hinOrder, fun hsignalled =>
    ⟨hinOrder.pending_eq_zero hsignalled, ?_⟩⟩
  rw [run_eq]
  exact runThrough_of_signalled faithful_relayAccess hfit hdrains hdrained hinOrder hsignalled _

end GridBridge.Session
