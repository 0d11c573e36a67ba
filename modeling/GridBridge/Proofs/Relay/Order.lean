import GridBridge.Proofs.Relay.Conduct

/-!
# The order of deliveries

A drain takes numbers off the front of the queue of a loop while the callbacks that it runs add numbers
behind. **`Drains`** is what it does, number by number; **`InOrder`** is what comes of that: a callback
runs for each number that a call waits under, when the number first comes up, and for no other number.
A number at the front is skipped (`InOrder.skip`) or served (`FirstServed`, `InOrder.serve`).

Callbacks are any code that does `Deed`s and leads to no more calls than `follow` says (`Conducts`).
-/

namespace GridBridge.Relay

open Protocol

variable {κ σ ε : Type} {relayOf : σ → Relay κ} {l : LoopId}

/-! ## What a drain does -/

/-- A callback that a drain ran, with the world that it found and the world that it left. -/
structure Served (κ σ : Type) where
  id : CallId
  callback : κ
  payload : Completion
  before : σ
  after : σ

namespace Served

variable (relayOf : σ → Relay κ) (l : LoopId)

/-- The numbers that became ready while the callback ran. -/
def sent (e : Served κ σ) : List CallId :=
  ((relayOf e.after).queueOn l).drop ((relayOf e.before).queueOn l).length

/-- The calls that the callback began and that wait when it is done. -/
def begun (e : Served κ σ) : List CallId :=
  ((relayOf e.after).waitingOn l).drop ((relayOf e.before).waitingOn l).length

end Served

/-- A drain, number by number, with the callbacks that it runs. A number under which nothing waits
leaves the queue, and that is all. -/
inductive Drains (world : Access κ (ExceptT ε (StateM σ))) (relayOf : σ → Relay κ)
    (react : κ → Completion → ExceptT ε (StateM σ) Unit) (l : LoopId) :
    σ → List (Served κ σ) → σ → Prop where
  | done {s : σ} (hempty : (relayOf s).claimNext? l = none) : Drains world relayOf react l s [] s
  | skip {s s₁ s' : σ} {id : CallId} {after : Relay κ} {log : List (Served κ σ)}
      (hnext : (relayOf s).claimNext? l = some (id, none, after))
      (honly : ∃ loop, (relayOf s).loop? l = some loop ∧
        after = (relayOf s).modifyLoop l fun _ => { loop with ready := loop.ready.tail })
      (hwrote : (world.write after).run.run s = (.ok (), s₁)) (hwritten : relayOf s₁ = after)
      (hrest : Drains world relayOf react l s₁ log s') : Drains world relayOf react l s log s'
  | serve {s s₁ s₂ s' : σ} {id : CallId} {after : Relay κ} {log : List (Served κ σ)} {callback : κ}
      {payload : Completion}
      (hnext : (relayOf s).claimNext? l = some (id, some (callback, payload), after))
      (hwrote : (world.write after).run.run s = (.ok (), s₁)) (hwritten : relayOf s₁ = after)
      (hran : (react callback payload).run.run s₁ = (.ok (), s₂))
      (hrest : Drains world relayOf react l s₂ log s') :
      Drains world relayOf react l s (⟨id, callback, payload, s₁, s₂⟩ :: log) s'

/-- Every callback in the log ran, in the world before it and to the world after it. -/
theorem Drains.ran {world : Access κ (ExceptT ε (StateM σ))}
    {react : κ → Completion → ExceptT ε (StateM σ) Unit} {s s' : σ} {log : List (Served κ σ)}
    (h : Drains world relayOf react l s log s') {e : Served κ σ} (hmem : e ∈ log) :
    (react e.callback e.payload).run.run e.before = (.ok (), e.after) := by
  induction h with
  | done => exact absurd hmem List.not_mem_nil
  | skip _ _ _ _ _ ih => exact ih hmem
  | serve _ _ _ hran _ ih =>
    rcases List.mem_cons.mp hmem with rfl | hmem
    · exact hran
    · exact ih hmem

/-- The callbacks that come up return, do deeds and lead to no more calls than is said of them. They may
rely on what is `good` about the world that the drain finds, and leave it good for the next. -/
structure Conducts (world : Access κ (ExceptT ε (StateM σ))) (relayOf : σ → Relay κ)
    (follow : κ → Nat) (react : κ → Completion → ExceptT ε (StateM σ) Unit) (l : LoopId)
    (good : σ → Prop) : Prop where
  skips : ∀ {id after s s₁}, good s → (relayOf s).claimNext? l = some (id, none, after) →
    (world.write after).run.run s = (.ok (), s₁) → good s₁
  serves : ∀ {id callback payload after s s₁}, good s →
    (relayOf s).claimNext? l = some (id, some (callback, payload), after) →
    (world.write after).run.run s = (.ok (), s₁) → relayOf s₁ = after → ∃ s₂ deeds,
      (react callback payload).run.run s₁ = (.ok (), s₂) ∧ good s₂ ∧
        relayOf s₂ = after.applyAll deeds ∧ (∀ deed ∈ deeds, deed.Spares l) ∧
        total (Deed.cost follow) deeds ≤ follow callback

/-! ## One number -/

/-- With nothing to withdraw, a loop stays as it is. -/
theorem withdraw_eq_self {loop : EventLoop κ} {id : CallId}
    (hunwaited : ∀ w ∈ loop.waiting, w.id ≠ id) :
    loop.withdraw id = loop := by
  unfold EventLoop.withdraw
  rw [List.filter_eq_self.mpr fun w hmem => bne_iff_ne.mpr (hunwaited w hmem)]

namespace Fit

variable {n : Nat} {r after : Relay κ} {loop : EventLoop κ} {id : CallId}
  {claimed : Option (κ × Completion)}

theorem queueOn_eq (h : Fit n l r loop) : r.queueOn l = loop.ready := by
  rw [queueOn, h.found]
  rfl

theorem waitingOn_eq (h : Fit n l r loop) : r.waitingOn l = loop.waiting.map (·.id) := by
  rw [waitingOn, h.found]
  rfl

theorem waitsOn_iff (h : Fit n l r loop) {w : Waiting κ} : r.WaitsOn l w ↔ w ∈ loop.waiting := by
  constructor
  · rintro ⟨loop', hfound, hmem⟩
    obtain rfl := Option.some.inj (h.found.symm.trans hfound)
    exact hmem
  · exact fun hmem => ⟨loop, h.found, hmem⟩

/-- A number that is taken is no longer ready and no longer waited for. It is claimed exactly if a call
waited under it. -/
theorem claim (h : Fit n l r loop) (hnext : r.claimNext? l = some (id, claimed, after)) :
    ∃ loop', Fit n l after loop' ∧ loop.ready = id :: loop'.ready ∧
      loop'.waiting = loop.waiting.filter (·.id != id) ∧ id.toNat ≤ n ∧
      (claimed = none → (∀ w ∈ loop.waiting, w.id ≠ id) ∧
        after = r.modifyLoop l fun _ => { loop with ready := loop.ready.tail }) ∧
      ∀ callback payload, claimed = some (callback, payload) →
        ⟨id, callback, some payload⟩ ∈ loop.waiting := by
  have hsheds := sheds_claimNext? hnext
  obtain ⟨loop₀, rest, hfound, hready, hvalue, rfl⟩ := claimNext?_eq_some hnext
  obtain rfl := Option.some.inj (h.found.symm.trans hfound)
  have hfront : id ∈ loop.ready := hready ▸ List.mem_cons_self ..
  refine ⟨({ loop with ready := rest } : EventLoop κ).withdraw id, ?_, hready, rfl,
    h.readyKnown id hfront, ?_, ?_⟩
  · obtain ⟨hkeyed, hbelow⟩ := h.listed.modifyLoop l fun _ =>
      ({ loop with ready := rest } : EventLoop κ).withdraw id
    refine ⟨?_, hkeyed, hbelow, h.numbered.sheds hsheds, ?_,
      nodup_withdraw h.once, ?_⟩
    · rw [loop?_modifyLoop, if_pos rfl, hfound]
      rfl
    · exact fun id' hmem => h.readyKnown id' (hready ▸ List.mem_cons_of_mem _ hmem)
    · intro w hmem hqueued
      exact h.filled w (mem_waiting_withdraw.mp hmem).1 (hready ▸ List.mem_cons_of_mem _ hqueued)
  · rintro rfl
    have hunwaited : ∀ w ∈ loop.waiting, w.id ≠ id := by
      rintro w hmem rfl
      -- it would have been found, with its slot filled
      cases hsearch : loop.find? w.id with
      | none => exact absurd (List.find?_eq_none.mp hsearch w hmem) (by simp)
      | some w' =>
        have hsame : w'.id = w.id := by simpa using List.find?_some hsearch
        have hfilled := h.filled w' (List.mem_of_find?_eq_some hsearch) (hsame ▸ hfront)
        obtain ⟨payload, hslot⟩ := Option.isSome_iff_exists.mp hfilled
        simp [hsearch, hslot] at hvalue
    refine ⟨hunwaited, ?_⟩
    have hsame : ({ loop with ready := rest } : EventLoop κ).withdraw id = _ :=
      withdraw_eq_self hunwaited
    rw [hsame, hready]
    rfl
  · rintro callback payload rfl
    obtain ⟨w, hsearch, hpair⟩ := Option.bind_eq_some_iff.mp hvalue.symm
    obtain ⟨payload', hslot, hpair⟩ := Option.map_eq_some_iff.mp hpair
    obtain ⟨rfl, rfl⟩ := Prod.mk.inj hpair
    have hsame : w.id = id := by simpa using List.find?_some hsearch
    rw [← hsame, ← hslot]
    exact List.mem_of_find?_eq_some hsearch

end Fit

/-! ## Room for the numbers to come -/

/-- Numbers that are still to be given out count, too. -/
def twice (follow : κ → Nat) : κ → Nat := fun callback => 2 * follow callback

theorem total_begins_add_cost (follow : κ → Nat) (deeds : List (Deed κ)) :
    total Deed.begins deeds + total (Deed.cost (twice follow)) deeds =
      2 * total (Deed.cost follow) deeds := by
  induction deeds with
  | nil => rfl
  | cons deed rest ih =>
    have hone : deed.begins + deed.cost (twice follow) = 2 * deed.cost follow := by
      cases deed with
      | issue l callback meanwhile refused =>
        show 1 + (2 * follow callback + 1) = 2 * (follow callback + 1)
        omega
      | _ => rfl
    simp only [total]
    omega

section Drain

variable {world : Access κ (ExceptT ε (StateM σ))} {follow : κ → Nat}
  {react : κ → Completion → ExceptT ε (StateM σ) Unit} {good : σ → Prop}
  {n : Nat} {s s' : σ} {loop : EventLoop κ} {callback : κ} {payload : Completion}

/-- Where so many calls were begun and drains can take so many numbers, none comes round. -/
def Room (follow : κ → Nat) (n : Nat) (r : Relay κ) : Prop :=
  n + drainLimit (twice follow) r < 2 ^ 64

/-- A callback that comes up on a loop that is fit leaves it fit, and no more to do than was said of
it. -/
theorem Conducts.serve (h : Conducts world relayOf follow react l good) (hfine : good s)
    {s₁ : σ} {id : CallId} {after : Relay κ}
    (hnext : (relayOf s).claimNext? l = some (id, some (callback, payload), after))
    (hwrote : (world.write after).run.run s = (.ok (), s₁)) (hwritten : relayOf s₁ = after)
    (hfit : Fit n l after loop)
    (hroom : n + drainLimit (twice follow) after + 2 * follow callback < 2 ^ 64) :
    ∃ s' n' loop' sent begun, (react callback payload).run.run s₁ = (.ok (), s') ∧ good s' ∧
      Fit n' l (relayOf s') loop' ∧ Grown n n' loop loop' sent begun ∧
      n' + drainLimit (twice follow) (relayOf s') ≤
        n + drainLimit (twice follow) after + 2 * follow callback ∧
      drainLimit follow (relayOf s') ≤ drainLimit follow after + follow callback := by
  obtain ⟨s', deeds, hran, hfine', hrelay, hspares, hcost⟩ := h.serves hfine hnext hwrote hwritten
  -- calls that are begun and calls that may follow are counted together, so twice the bound is enough
  -- for both
  have hcounts := total_begins_add_cost follow deeds
  have henough : n + total Deed.begins deeds < 2 ^ 64 := by omega
  obtain ⟨loop', sent, begun, hfit', hgrown⟩ := hfit.deeds deeds henough hspares
  have hsingle : drainLimit follow _ ≤ _ := hfit.drainLimit_deeds deeds henough hspares
  have hdouble : drainLimit (twice follow) _ ≤ _ := hfit.drainLimit_deeds deeds henough hspares
  rw [← hrelay] at hfit' hsingle hdouble
  exact ⟨s', _, loop', sent, begun, hran, hfine', hfit', hgrown, by omega, by omega⟩

/-- A drain with enough numbers to take comes to its end. -/
theorem drains_within (hfaithful : Faithful world relayOf)
    (hconducts : Conducts world relayOf follow react l good) (limit : Nat) (hfine : good s)
    (hfit : Fit n l (relayOf s) loop) (hroom : Room follow n (relayOf s))
    (henough : drainLimit follow (relayOf s) ≤ limit) :
    ∃ log s', Drains world relayOf react l s log s' ∧
      (drainWithin world react l limit).run.run s = (.ok log.length, s') ∧ good s' ∧
      ∃ n' loop', Fit n' l (relayOf s') loop' ∧ Room follow n' (relayOf s') := by
  induction limit generalizing s n loop with
  | zero =>
    -- so few numbers are left that none is ready
    have hnothing := ready_le_drainLimit follow hfit.found
    have hidle : loop.ready = [] := List.length_eq_zero_iff.mp (by omega)
    have hempty : (relayOf s).claimNext? l = none := by
      unfold claimNext? EventLoop.pop?
      rw [hfit.found, Option.bind_some, hidle]
    exact ⟨[], s, .done hempty, rfl, hfine, n, loop, hfit, hroom⟩
  | succ limit ih =>
    unfold drainWithin deliverNext
    simp only [bind_assoc]
    rw [run_bind_of_ok (hfaithful.read s)]
    cases hnext : (relayOf s).claimNext? l with
    | none => exact ⟨[], s, .done hnext, rfl, hfine, n, loop, hfit, hroom⟩
    | some found =>
      obtain ⟨id, claimed, after⟩ := found
      obtain ⟨s₁, hwrote, hwritten⟩ := hfaithful.write after s
      obtain ⟨loop₁, hfit₁, -, -, -, hunclaimed, -⟩ := hfit.claim hnext
      obtain ⟨-, -, -, -, -, hfewer⟩ := claimNext?_spec follow hfit.keyed hfit.found hnext
      obtain ⟨-, -, -, -, -, hfewer₂⟩ := claimNext?_spec (twice follow) hfit.keyed hfit.found hnext
      unfold Room at hroom
      simp only [bind_assoc]
      rw [run_bind_of_ok hwrote]
      cases claimed with
      | none =>
        rw [← hwritten] at hfit₁ hfewer hfewer₂
        have hfine₁ := hconducts.skips hfine hnext hwrote
        obtain ⟨log, s', hrest, hran, hfine', hlast⟩ := ih hfine₁ hfit₁ (show _ < _ by omega) (by omega)
        refine ⟨log, s', .skip hnext ⟨loop, hfit.found, (hunclaimed rfl).2⟩ hwrote hwritten hrest,
          ?_, hfine',
          hlast⟩
        simp only [pure_bind]
        rw [run_bind_of_ok hran]
        exact congrArg (fun count => (Except.ok count, s')) (Nat.zero_add log.length)
      | some called =>
        obtain ⟨callback, payload⟩ := called
        -- the callback leads to no more calls than the limit has counted
        have hcounts : follows follow (some (callback, payload)) = follow callback := rfl
        have hcounts₂ : follows (twice follow) (some (callback, payload)) = 2 * follow callback := rfl
        obtain ⟨s₂, n₂, loop₂, -, -, hserved, hfine₂, hfit₂, -, hroom₂, hlimit₂⟩ :=
          hconducts.serve hfine hnext hwrote hwritten hfit₁ (by omega)
        obtain ⟨log, s', hrest, hran, hfine', hlast⟩ := ih hfine₂ hfit₂ (show _ < _ by omega) (by omega)
        refine ⟨⟨id, callback, payload, s₁, s₂⟩ :: log, s', .serve hnext hwrote hwritten hserved
          hrest, ?_,
          hfine', hlast⟩
        simp only [bind_assoc, pure_bind]
        rw [run_bind_of_ok hserved, run_bind_of_ok hran]
        exact congrArg (fun count => (Except.ok count, s')) (Nat.add_comm 1 log.length)

/-! ## What comes of it -/

variable (relayOf l) in
/-- What comes of a drain, with what it ran in `log`. -/
structure InOrder (n : Nat) (s : σ) (log : List (Served κ σ)) (s' : σ) : Prop where
  /-- Of all numbers that come up, each that a call waits under is served when it first does. -/
  order : log.map (·.id) =
    (((relayOf s).queueOn l ++ log.flatMap (·.sent relayOf l)).filter
      (· ∈ (relayOf s).waitingOn l ++ log.flatMap (·.begun relayOf l))).eraseDups
  /-- A callback is given what the slot of its call held. -/
  called : ∀ e ∈ log, ∃ x ∈ s :: log.map (·.after),
    (relayOf x).WaitsOn l ⟨e.id, e.callback, some e.payload⟩
  /-- And no other callback or payload was ever under its number. -/
  same : ∀ e ∈ log, ∀ x ∈ s :: log.map (·.after), ∀ w, (relayOf x).WaitsOn l w → w.id = e.id →
    w.callback = e.callback ∧ ∀ payload, w.slot = some payload → payload = e.payload
  queue : (relayOf s').queueOn l = []
  waiting : (relayOf s').waitingOn l =
    ((relayOf s).waitingOn l ++ log.flatMap (·.begun relayOf l)).filter (· ∉ log.map (·.id))
  fresh : ∀ id ∈ log.flatMap (·.begun relayOf l), n < id.toNat
  later : ∀ x ∈ log.map (·.after), ∀ w, (relayOf x).WaitsOn l w →
    w.id ∈ (relayOf s).waitingOn l ∨ n < w.id.toNat

/-- A number that is served comes first, and then not again. -/
theorem eraseDups_served {id : CallId} {waits waits' queue : List CallId} (hmem : id ∈ waits)
    (hothers : ∀ id', id' ∈ waits' ↔ id' ∈ waits ∧ id' ≠ id) :
    ((id :: queue).filter (· ∈ waits)).eraseDups = id :: (queue.filter (· ∈ waits')).eraseDups := by
  rw [List.filter_cons_of_pos (by simpa using hmem), List.eraseDups_cons, List.filter_filter]
  congr 2
  apply List.filter_congr
  intro id' _
  rw [Bool.eq_iff_iff]
  simp [hothers, and_comm]

theorem WaitsOn.mem {r : Relay κ} {w : Waiting κ} (hwaits : r.WaitsOn l w) : w.id ∈ r.waitingOn l :=
  mem_waitingOn.mpr ⟨w, hwaits, rfl⟩

/-! ## A number that nothing waits under -/

/-- Where the loop waits for the same calls, and only a number that none of them has is gone from the
front, what comes of the rest comes of the whole. -/
theorem InOrder.skip {s₁ : σ} {id : CallId} {log : List (Served κ σ)}
    (h : InOrder relayOf l n s₁ log s') (hknown : id.toNat ≤ n)
    (hqueue : (relayOf s).queueOn l = id :: (relayOf s₁).queueOn l)
    (hwaitsOn : ∀ w, (relayOf s).WaitsOn l w ↔ (relayOf s₁).WaitsOn l w)
    (hwaits : (relayOf s).waitingOn l = (relayOf s₁).waitingOn l)
    (hunwaited : id ∉ (relayOf s).waitingOn l) : InOrder relayOf l n s log s' := by
  -- a number that is in use was given out before, and those begun later are greater
  have hstale : id ∉ (relayOf s).waitingOn l ++ log.flatMap (·.begun relayOf l) := by
    rw [List.mem_append]
    rintro (hmem | hmem)
    · exact hunwaited hmem
    · exact absurd (h.fresh id hmem) (Nat.not_lt.mpr hknown)
  exact {
    order := by
      rw [h.order, hqueue, ← hwaits, List.cons_append, List.filter_cons_of_neg (by simpa using hstale)]
    called := by
      intro e hmem
      obtain ⟨x, hseen, hwaitsThere⟩ := h.called e hmem
      rcases List.mem_cons.mp hseen with rfl | hseen
      · exact ⟨s, List.mem_cons_self .., (hwaitsOn _).mpr hwaitsThere⟩
      · exact ⟨x, List.mem_cons_of_mem _ hseen, hwaitsThere⟩
    same := by
      intro e hmem x hseen w hwaitsThere
      rcases List.mem_cons.mp hseen with rfl | hseen
      · exact h.same e hmem s₁ (List.mem_cons_self ..) w ((hwaitsOn w).mp hwaitsThere)
      · exact h.same e hmem x (List.mem_cons_of_mem _ hseen) w hwaitsThere
    queue := h.queue
    waiting := by rw [h.waiting, hwaits]
    fresh := h.fresh
    later := fun x hseen w hwaitsThere => hwaits ▸ h.later x hseen w hwaitsThere }

/-! ## A number that a call waits under -/

variable (relayOf l) in
/-- What a callback finds and leaves that runs for the number at the front. So many calls were begun
before it took its call, and so many when it is done. -/
structure FirstServed (n n' : Nat) (s : σ) (e : Served κ σ) : Prop where
  le : n ≤ n'
  known : e.id.toNat ≤ n
  called : (relayOf s).WaitsOn l ⟨e.id, e.callback, some e.payload⟩
  /-- Before it, no two calls wait under one number. -/
  once : ∀ w w', (relayOf s).WaitsOn l w → (relayOf s).WaitsOn l w' → w.id = w'.id → w = w'
  numbered : ∀ w, (relayOf s).WaitsOn l w → w.id.toNat ≤ n
  queue : (relayOf s).queueOn l ++ e.sent relayOf l = e.id :: (relayOf e.after).queueOn l
  /-- Of the calls that waited before, all but its own wait on. -/
  waits : (relayOf e.after).waitingOn l =
    ((relayOf s).waitingOn l).filter (· != e.id) ++ e.begun relayOf l
  fresh : ∀ id ∈ e.begun relayOf l, n < id.toNat
  /-- A call that waits on has its callback and what was in its slot. -/
  kept : ∀ w, (relayOf s).WaitsOn l w → w.id ∈ (relayOf e.after).waitingOn l →
    ∃ w', (relayOf e.after).WaitsOn l w' ∧ w'.id = w.id ∧ w'.callback = w.callback ∧
      ∀ payload, w.slot = some payload → w'.slot = some payload

/-- A callback that ran for a number at the front of a loop that is fit. -/
theorem Conducts.firstServed (h : Conducts world relayOf follow react l good) (hfine : good s)
    (hfit : Fit n l (relayOf s) loop) (hroom : Room follow n (relayOf s)) {s₁ s₂ : σ} {id : CallId}
    {after : Relay κ} (hnext : (relayOf s).claimNext? l = some (id, some (callback, payload), after))
    (hwrote : (world.write after).run.run s = (.ok (), s₁)) (hwritten : relayOf s₁ = after)
    (hran : (react callback payload).run.run s₁ = (.ok (), s₂)) :
    ∃ n₂ loop₂, good s₂ ∧ Fit n₂ l (relayOf s₂) loop₂ ∧ Room follow n₂ (relayOf s₂) ∧
      FirstServed relayOf l n n₂ s ⟨id, callback, payload, s₁, s₂⟩ := by
  obtain ⟨loop₁, hfit₁, hready, hwaiting, hknown, -, hclaims⟩ := hfit.claim hnext
  obtain ⟨-, -, -, -, -, hfewer⟩ := claimNext?_spec (twice follow) hfit.keyed hfit.found hnext
  have hcounts : follows (twice follow) (some (callback, payload)) = 2 * follow callback := rfl
  unfold Room at hroom
  obtain ⟨s₂', n₂, loop₂, sent, begun, hserved, hfine₂, hfit₂, hgrown, hroom₂, -⟩ :=
    h.serve hfine hnext hwrote hwritten hfit₁ (by omega)
  rw [← hwritten] at hfit₁
  obtain rfl : s₂' = s₂ := (Prod.mk.inj (hserved.symm.trans hran)).2
  -- what the callback sent and began is read off the two sides of its run
  let e : Served κ σ := ⟨id, callback, payload, s₁, s₂'⟩
  have hsends : e.sent relayOf l = sent := by
    show ((relayOf s₂').queueOn l).drop ((relayOf s₁).queueOn l).length = sent
    rw [hfit₁.queueOn_eq, hfit₂.queueOn_eq, hgrown.ready, List.drop_left]
  have hbegins : e.begun relayOf l = begun := by
    show ((relayOf s₂').waitingOn l).drop ((relayOf s₁).waitingOn l).length = begun
    rw [hfit₁.waitingOn_eq, hfit₂.waitingOn_eq, hgrown.ids, List.drop_left]
  refine ⟨n₂, loop₂, hfine₂, hfit₂, show _ < _ by omega, ?_⟩
  exact {
    le := hgrown.le
    known := hknown
    called := hfit.waitsOn_iff.mpr (hclaims callback payload rfl)
    once := fun w w' hwaits hwaits' hsame => List.inj_on_of_nodup_map hfit.once
      (hfit.waitsOn_iff.mp hwaits) (hfit.waitsOn_iff.mp hwaits') hsame
    numbered := fun w hwaits => hfit.waitsKnown (hfit.waitsOn_iff.mp hwaits)
    queue := by
      rw [hsends, hfit.queueOn_eq, hfit₂.queueOn_eq, hgrown.ready, hready, List.cons_append]
    waits := by
      rw [hbegins, hfit.waitingOn_eq, hfit₂.waitingOn_eq, hgrown.ids, hwaiting, List.filter_map]
      rfl
    fresh := hbegins ▸ hgrown.fresh
    kept := by
      intro w hwaits hmem
      obtain ⟨w', hwaits', hsame⟩ := mem_waitingOn.mp hmem
      -- a call that waited before has a smaller number than any begun now
      have hold : w'.id ∉ begun := fun hnew => absurd (hsame ▸ hgrown.fresh _ hnew)
        (Nat.not_lt.mpr (hfit.waitsKnown (hfit.waitsOn_iff.mp hwaits)))
      obtain ⟨w₀, hmem₀, hsame₀, hcallback₀, hkept⟩ :=
        (hgrown.slots w' (hfit₂.waitsOn_iff.mp hwaits')).resolve_left hold
      rw [hwaiting] at hmem₀
      obtain rfl := List.inj_on_of_nodup_map hfit.once (List.mem_of_mem_filter hmem₀)
        (hfit.waitsOn_iff.mp hwaits) (hsame₀.trans hsame)
      exact ⟨w', hwaits', hsame, hcallback₀.symm, hkept⟩ }

namespace FirstServed

variable {n' : Nat} {e : Served κ σ} {log : List (Served κ σ)}

theorem ne_of_new (h : FirstServed relayOf l n n' s e) {id : CallId} (hnew : n < id.toNat) :
    id ≠ e.id := by
  rintro rfl
  exact absurd hnew (Nat.not_lt.mpr h.known)

/-- What waits when the callback is done waited before, under another number, or is new. -/
theorem old_or_new (h : FirstServed relayOf l n n' s e) {id : CallId}
    (hmem : id ∈ (relayOf e.after).waitingOn l) :
    id ≠ e.id ∧ (id ∈ (relayOf s).waitingOn l ∨ n < id.toNat) := by
  rw [h.waits] at hmem
  rcases List.mem_append.mp hmem with hold | hnew
  · obtain ⟨hold, hapart⟩ := List.mem_filter.mp hold
    exact ⟨by simpa using hapart, .inl hold⟩
  · exact ⟨h.ne_of_new (h.fresh id hnew), .inr (h.fresh id hnew)⟩

/-- Nothing waits again under the number that was served. -/
theorem not_again (h : FirstServed relayOf l n n' s e) (hrest : InOrder relayOf l n' e.after log s')
    {x : σ} (hseen : x ∈ e.after :: log.map (·.after)) {w : Waiting κ}
    (hwaits : (relayOf x).WaitsOn l w) :
    w.id ≠ e.id ∧ (w.id ∈ (relayOf s).waitingOn l ∨ n < w.id.toNat) := by
  rcases List.mem_cons.mp hseen with rfl | hseen
  · exact h.old_or_new hwaits.mem
  · rcases hrest.later x hseen w hwaits with hold | hnew
    · exact h.old_or_new hold
    · have hnew := Nat.lt_of_le_of_lt h.le hnew
      exact ⟨h.ne_of_new hnew, .inr hnew⟩

theorem begun_new (h : FirstServed relayOf l n n' s e) (hrest : InOrder relayOf l n' e.after log s')
    {id : CallId} (hmem : id ∈ e.begun relayOf l ++ log.flatMap (·.begun relayOf l)) :
    n < id.toNat := by
  rcases List.mem_append.mp hmem with hmem | hmem
  · exact h.fresh id hmem
  · exact Nat.lt_of_le_of_lt h.le (hrest.fresh id hmem)

/-- A call that is served later on and that waits before the callback waits behind it. -/
theorem waits_still (h : FirstServed relayOf l n n' s e)
    (hrest : InOrder relayOf l n' e.after log s') {e' : Served κ σ} (hmem : e' ∈ log)
    (hknown : e'.id.toNat ≤ n) : e'.id ∈ (relayOf e.after).waitingOn l := by
  obtain ⟨x, hseen, hwaits⟩ := hrest.called e' hmem
  rcases List.mem_cons.mp hseen with rfl | hseen
  · exact hwaits.mem
  · refine (hrest.later x hseen _ hwaits).resolve_right fun hnew => ?_
    exact absurd (Nat.le_trans hknown h.le) (Nat.not_le.mpr hnew)

/-- A number that is served comes first, and then those that are served later. -/
theorem order (h : FirstServed relayOf l n n' s e) (hrest : InOrder relayOf l n' e.after log s') :
    (e :: log).map (·.id) =
      (((relayOf s).queueOn l ++ (e :: log).flatMap (·.sent relayOf l)).filter
        (· ∈ (relayOf s).waitingOn l ++ (e :: log).flatMap (·.begun relayOf l))).eraseDups := by
  have hqueue : (relayOf s).queueOn l ++ (e.sent relayOf l ++ log.flatMap (·.sent relayOf l)) =
      e.id :: ((relayOf e.after).queueOn l ++ log.flatMap (·.sent relayOf l)) := by
    rw [← List.append_assoc, h.queue, List.cons_append]
  rw [List.map_cons, List.flatMap_cons, List.flatMap_cons, hqueue, hrest.order]
  symm
  apply eraseDups_served
  · exact List.mem_append_left _ h.called.mem
  · intro id
    have hapart : id ∈ e.begun relayOf l ++ log.flatMap (·.begun relayOf l) → id ≠ e.id :=
      fun hmem => h.ne_of_new (h.begun_new hrest hmem)
    simp only [h.waits, List.mem_append, List.mem_filter, bne_iff_ne] at hapart ⊢
    tauto

/-- No other callback or payload than those of the log was ever under a number of the log. -/
theorem same (h : FirstServed relayOf l n n' s e) (hrest : InOrder relayOf l n' e.after log s')
    {e' : Served κ σ} (hmem : e' ∈ e :: log) {x : σ}
    (hseen : x ∈ s :: (e :: log).map (·.after)) {w : Waiting κ} (hwaits : (relayOf x).WaitsOn l w)
    (hsame : w.id = e'.id) :
    w.callback = e'.callback ∧ ∀ payload, w.slot = some payload → payload = e'.payload := by
  rcases List.mem_cons.mp hmem with rfl | hmem <;> rcases List.mem_cons.mp hseen with rfl | hseen
  · obtain rfl := h.once _ _ hwaits h.called hsame
    exact ⟨rfl, fun payload hslot => (Option.some.inj hslot).symm⟩
  · exact absurd hsame (h.not_again hrest hseen hwaits).1
  · -- the call waits from before the callback on, so it is the one that is served later
    have hknown : w.id.toNat ≤ n := h.numbered w hwaits
    obtain ⟨w', hwaits', hsame', hcallback', hkept⟩ :=
      h.kept w hwaits (hsame ▸ h.waits_still hrest hmem (hsame ▸ hknown))
    obtain ⟨hcallback, hpayloads⟩ :=
      hrest.same e' hmem _ (List.mem_cons_self ..) w' hwaits' (hsame'.trans hsame)
    exact ⟨hcallback'.symm.trans hcallback, fun payload hslot => hpayloads payload
      (hkept payload hslot)⟩
  · exact hrest.same e' hmem x hseen w hwaits hsame

end FirstServed

/-- What comes of the drain that goes on behind a callback comes of both. -/
theorem InOrder.serve {n' : Nat} {e : Served κ σ} {log : List (Served κ σ)}
    (hrest : InOrder relayOf l n' e.after log s') (h : FirstServed relayOf l n n' s e) :
    InOrder relayOf l n s (e :: log) s' where
  order := h.order hrest
  called := by
    intro e' hmem
    rcases List.mem_cons.mp hmem with rfl | hmem
    · exact ⟨s, List.mem_cons_self .., h.called⟩
    · obtain ⟨x, hseen, hwaits⟩ := hrest.called e' hmem
      exact ⟨x, List.mem_cons_of_mem _ hseen, hwaits⟩
  same := fun e' hmem x hseen w hwaits hsame => h.same hrest hmem hseen hwaits hsame
  queue := hrest.queue
  waiting := by
    rw [hrest.waiting, h.waits, List.map_cons, List.flatMap_cons, List.append_assoc,
      List.filter_append, List.filter_append ((relayOf s).waitingOn l), List.filter_filter]
    -- first the calls from before, then those the callback began: neither list has numbers of the
    -- other
    congr 1
    · apply List.filter_congr
      intro id _
      rw [Bool.eq_iff_iff]
      simp [and_comm]
    · apply List.filter_congr
      intro id hmem
      simp [h.ne_of_new (h.begun_new hrest hmem)]
  fresh := fun id hmem => h.begun_new hrest (List.flatMap_cons ▸ hmem)
  later := fun x hseen w hwaits => (h.not_again hrest hseen hwaits).2

/-! ## The drain -/

/-- The induction is on what the drain does, from its end: what a number adds is `InOrder.skip` or
`InOrder.serve`. -/
theorem Drains.inOrder {log : List (Served κ σ)} (hdrains : Drains world relayOf react l s log s')
    (hconducts : Conducts world relayOf follow react l good) (hfine : good s)
    (hfit : Fit n l (relayOf s) loop) (hroom : Room follow n (relayOf s)) :
    InOrder relayOf l n s log s' := by
  induction hdrains generalizing n loop with
  | @done s hempty =>
    have hidle : (relayOf s).queueOn l = [] := by
      have hpopped := pop?_of_claimNext?_eq_none hfit.found hempty
      unfold EventLoop.pop? at hpopped
      rw [hfit.queueOn_eq]
      cases hready : loop.ready with
      | nil => rfl
      | cons id rest => simp [hready] at hpopped
    exact {
      order := by simp [hidle]
      called := nofun
      same := nofun
      queue := hidle
      waiting := by simp
      fresh := nofun
      later := nofun }
  | @skip s s₁ s' id after log hnext _ hwrote hwritten hrest ih =>
    obtain ⟨loop₁, hfit₁, hready, hwaiting, hknown, hunclaimed, -⟩ := hfit.claim hnext
    obtain ⟨-, -, -, -, -, hfewer⟩ := claimNext?_spec (twice follow) hfit.keyed hfit.found hnext
    rw [← hwritten] at hfit₁ hfewer
    unfold Room at hroom
    have h := ih (hconducts.skips hfine hnext hwrote) hfit₁ (show _ < _ by omega)
    have hunwaited := (hunclaimed rfl).1
    -- nothing waits under the number, so the loop waits for the same calls
    have hkept : loop₁.waiting = loop.waiting := by
      rw [hwaiting]
      exact List.filter_eq_self.mpr fun w hmem => bne_iff_ne.mpr (hunwaited w hmem)
    refine h.skip hknown ?_ ?_ ?_ ?_
    · rw [hfit.queueOn_eq, hfit₁.queueOn_eq, hready]
    · intro w
      rw [hfit.waitsOn_iff, hfit₁.waitsOn_iff, hkept]
    · rw [hfit.waitingOn_eq, hfit₁.waitingOn_eq, hkept]
    · rw [hfit.waitingOn_eq]
      intro hmem
      obtain ⟨w, hmem, hsame⟩ := List.mem_map.mp hmem
      exact hunwaited w hmem hsame
  | serve hnext hwrote hwritten hran hrest ih =>
    obtain ⟨n₂, loop₂, hfine₂, hfit₂, hroom₂, hfirst⟩ :=
      hconducts.firstServed hfine hfit hroom hnext hwrote hwritten hran
    exact (ih hfine₂ hfit₂ hroom₂).serve hfirst

end Drain

end GridBridge.Relay
