import GridBridge.Proofs.Outcome
import GridBridge.Proofs.Relay.Views
import GridBridge.Proofs.Relay.Wake
import GridBridge.Relay.Drain

/-!
# Relay disturbances: what goes on around one loop while its owner is busy

While a callback runs or the owner waits, other code changes the relay. **`Tampered`** says what this
can come to for one loop: slots are filled, numbers are sent, and if the owner's own code runs, calls
are registered and withdrawn. All of it is made of `Move`s.

**`Disturbed`** says it of a relay and adds how the bound grows that a drain counts with
(`drainLimit`): a signal moves a call from those in flight to those ready, and a new call counts for
itself and for the calls that its callback leads to.

Code that delivers and issues reads and writes the relay through an `Access`, wherever it is kept. An
access is **`Faithful`** if it reads what was written.
-/

namespace GridBridge.Relay

open Protocol

variable {κ : Type}

/-! ## Worlds that keep a relay -/

/-- The relay of a state is what is read, and what is written is the relay of the next. -/
structure Faithful {σ ε : Type} (world : Access κ (ExceptT ε (StateM σ))) (relayOf : σ → Relay κ) :
    Prop where
  read : ∀ s, world.read.run.run s = (.ok (relayOf s), s)
  write : ∀ relay s, ∃ s', (world.write relay).run.run s = (.ok (), s') ∧ relayOf s' = relay

/-! ## One loop -/

/-- What happens to a loop beside its turns. Its owner takes part if `own`. -/
inductive Tampered (own : Bool) : EventLoop κ → EventLoop κ → Prop where
  | refl (loop : EventLoop κ) : Tampered own loop loop
  | fill {loop loop' : EventLoop κ} (id : CallId) (payload : Completion)
      (hrest : Tampered own (loop.fill id payload) loop') : Tampered own loop loop'
  | send {loop loop' : EventLoop κ} (id : CallId)
      (hrest : Tampered own (loop.push id).unpark loop') : Tampered own loop loop'
  | register {loop loop' : EventLoop κ} (id : CallId) (callback : κ) (hmine : own = true)
      (hrest : Tampered own (loop.register id callback) loop') : Tampered own loop loop'
  | withdraw {loop loop' : EventLoop κ} (id : CallId) (hmine : own = true)
      (hrest : Tampered own (loop.withdraw id) loop') : Tampered own loop loop'

/-- What goes on later is added behind. -/
theorem Tampered.trans {own : Bool} {loop loop' loop'' : EventLoop κ}
    (h : Tampered own loop loop') (h' : Tampered own loop' loop'') : Tampered own loop loop'' := by
  induction h with
  | refl loop => exact h'
  | fill id payload _ ih => exact .fill id payload (ih h')
  | send id _ ih => exact .send id (ih h')
  | register id callback hmine _ ih => exact .register id callback hmine (ih h')
  | withdraw id hmine _ ih => exact .withdraw id hmine (ih h')

/-- Moves after moves. -/
theorem Moves.trans {t t' t'' : Scene κ} (h : Moves t t') (h' : Moves t' t'') : Moves t t'' := by
  induction h with
  | refl _ => exact h'
  | head hnext _ ih => exact .head hnext (ih h')

/-- Moves stay within what can be reached. -/
theorem Moves.reachable {t t' : Scene κ} (hmoves : Moves t t') (hreach : t.Reachable) :
    t'.Reachable := by
  induction hmoves with
  | refl => exact hreach
  | head hnext _ ih => exact ih (hreach.step hnext)

/-- Whatever happens beside the turns is made of moves. -/
theorem Tampered.moves {own : Bool} {loop loop' : EventLoop κ} (h : Tampered own loop loop')
    {t : Scene κ} (hsame : t.loop = loop) (hfree : own = true → t.Free) :
    Moves t { t with loop := loop' } := by
  induction h generalizing t with
  | refl loop =>
    subst hsame
    exact .refl t
  | fill id payload _ ih =>
    subst hsame
    exact .head (.fill t id payload) (ih rfl hfree)
  | send id _ ih =>
    subst hsame
    -- a number is sent in two moves: it is put in the queue, then the owner is woken
    have hpushed := Move.push t id
    have hwoken := Move.unpark { t with loop := t.loop.push id, sending := id :: t.sending } id
      (List.mem_cons_self ..)
    rw [List.erase_cons_head] at hwoken
    exact .head hpushed (.head hwoken (ih rfl hfree))
  | register id callback hmine _ ih =>
    subst hsame
    exact .head (.register t id callback (hfree hmine)) (ih rfl hfree)
  | withdraw id hmine _ ih =>
    subst hsame
    exact .head (.withdraw t id (hfree hmine)) (ih rfl hfree)

/-! ## The bound of a drain -/

section Load

variable (follow : κ → Nat)

/-- Numbers that a drain takes off the queue of one loop: those ready, and those that the callbacks
waiting there still lead to. -/
def EventLoop.load (loop : EventLoop κ) : Nat :=
  loop.ready.length + total (follow ·.callback) loop.waiting

/-- No two loops have the same number. -/
def Keyed (r : Relay κ) : Prop := (r.loops.map (·.1)).Nodup

/-- Two lists count together. -/
theorem total_append {α : Type} (count : α → Nat) (xs ys : List α) :
    total count (xs ++ ys) = total count xs + total count ys := by
  induction xs with
  | nil => simp [total]
  | cons x xs ih =>
    rw [List.cons_append, total, total, ih]
    omega

/-- What is left of a list counts no more than the list. -/
theorem total_filter_le {α : Type} (count : α → Nat) (keep : α → Bool) (xs : List α) :
    total count (xs.filter keep) ≤ total count xs := by
  induction xs with
  | nil => exact Nat.le_refl 0
  | cons x xs ih =>
    rw [List.filter_cons]
    split
    · rw [total, total]
      omega
    · rw [total]
      omega

/-- What is filtered out does not count any more. -/
theorem total_filter_add {α : Type} (count : α → Nat) (keep : α → Bool) {xs : List α} {x : α}
    (hmem : x ∈ xs) (hout : keep x = false) :
    total count (xs.filter keep) + count x ≤ total count xs := by
  induction xs with
  | nil => cases hmem
  | cons y ys ih =>
    have hrest := total_filter_le count keep ys
    rw [total, List.filter_cons]
    -- the member is the first, which is left out, or further back
    obtain rfl | hmem := List.mem_cons.mp hmem
    · rw [hout]
      simp only [Bool.false_eq_true, if_false]
      omega
    · have := ih hmem
      split
      · rw [total]
        omega
      · omega

/-- A loop that is not there does not change. -/
theorem modify_of_absent {f : EventLoop κ → EventLoop κ} {l : LoopId}
    {entries : List (LoopId × EventLoop κ)} (habsent : ∀ entry ∈ entries, entry.1 ≠ l) :
    (entries.map fun (key, loop) => if key = l then (key, f loop) else (key, loop)) = entries := by
  apply (List.map_congr_left ?_).trans (List.map_id entries)
  intro entry hmem
  simp [habsent entry hmem]

/-- Only the loop that changes counts differently. -/
theorem total_modify {f : EventLoop κ → EventLoop κ} {l : LoopId} {loop : EventLoop κ}
    (entries : List (LoopId × EventLoop κ)) (hkeyed : (entries.map (·.1)).Nodup)
    (hfound : entries.lookup l = some loop) :
    total (fun entry : LoopId × EventLoop κ => entry.2.load follow)
        (entries.map fun (key, loop) => if key = l then (key, f loop) else (key, loop)) +
        loop.load follow =
      total (fun entry : LoopId × EventLoop κ => entry.2.load follow) entries +
        (f loop).load follow := by
  induction entries with
  | nil => cases hfound
  | cons entry rest ih =>
    obtain ⟨key, first⟩ := entry
    rw [List.map_cons, List.nodup_cons] at hkeyed
    rw [List.map_cons, total, total]
    by_cases hhere : l = key
    · subst hhere
      obtain rfl : first = loop := by simpa using hfound
      -- the keys are distinct, so no later entry is the loop that changes
      have habsent : ∀ other ∈ rest, other.1 ≠ l := by
        intro other hmem hsame
        exact hkeyed.1 (List.mem_map.mpr ⟨other, hmem, hsame⟩)
      have hsame := modify_of_absent (f := f) habsent
      rw [hsame]
      simp only [if_true]
      omega
    · have helsewhere : (l == key) = false := by simpa using hhere
      rw [List.lookup_cons, helsewhere] at hfound
      have hothers := ih hkeyed.2 hfound
      simp only [if_neg (Ne.symm hhere)] at hothers ⊢
      omega

/-- If one loop changes the bound changes by what that loop counts. -/
theorem drainLimit_modifyLoop {r : Relay κ} {l : LoopId} {loop : EventLoop κ}
    {f : EventLoop κ → EventLoop κ} (hkeyed : Keyed r) (hfound : r.loop? l = some loop) :
    drainLimit follow (r.modifyLoop l f) + loop.load follow =
      drainLimit follow r + (f loop).load follow := by
  have hloops := total_modify follow (f := f) r.loops hkeyed hfound
  show r.inFlight.length + _ + _ = r.inFlight.length + _ + _
  rw [Nat.add_assoc, Nat.add_assoc]
  exact congrArg (r.inFlight.length + ·) hloops

/-- A change that adds at most `more` to a loop, if the loop is there. -/
theorem drainLimit_modifyLoop_le {r : Relay κ} {l : LoopId} {f : EventLoop κ → EventLoop κ}
    {more : Nat} (hkeyed : Keyed r) (hle : ∀ loop, (f loop).load follow ≤ loop.load follow + more) :
    drainLimit follow (r.modifyLoop l f) ≤ drainLimit follow r + more := by
  cases hfound : r.loop? l with
  | some loop =>
    have hexact := drainLimit_modifyLoop follow (f := f) hkeyed hfound
    have := hle loop
    omega
  -- a loop that is not there does not change
  | none =>
    have habsent : ∀ entry ∈ r.loops, entry.1 ≠ l := by
      intro entry hmem hsame
      have hother := List.lookup_eq_none_iff.mp hfound entry hmem
      simp [hsame] at hother
    have hsame : r.modifyLoop l f = r := by
      unfold modifyLoop
      rw [modify_of_absent habsent]
    rw [hsame]
    omega

/-- What is ready counts. -/
theorem ready_le_drainLimit {r : Relay κ} {l : LoopId} {loop : EventLoop κ}
    (hfound : r.loop? l = some loop) : loop.ready.length ≤ drainLimit follow r := by
  -- one loop counts no more than all of them
  have hamong (entries : List (LoopId × EventLoop κ)) (hfound : entries.lookup l = some loop) :
      loop.load follow ≤ total (fun entry : LoopId × EventLoop κ => entry.2.load follow) entries := by
    induction entries with
    | nil => cases hfound
    | cons entry rest ih =>
      rw [List.lookup_cons] at hfound
      rw [total]
      split at hfound
      · cases hfound
        exact Nat.le_add_right ..
      · exact Nat.le_trans (ih hfound) (Nat.le_add_left ..)
  have hcounted := hamong r.loops hfound
  have hready : loop.ready.length ≤ loop.load follow := Nat.le_add_right ..
  have hwhole : total (fun entry : LoopId × EventLoop κ => entry.2.load follow) r.loops ≤
      drainLimit follow r := Nat.le_add_left ..
  omega

end Load

/-! ## The whole relay -/

/-- Signals in a row. -/
def signalAll (r : Relay κ) (signals : List (CallId × Completion)) : Relay κ :=
  signals.foldl (fun r signal => r.signal signal.1 signal.2) r

/-- Signals after signals. -/
theorem signalAll_append (r : Relay κ) (signals signals' : List (CallId × Completion)) :
    r.signalAll (signals ++ signals') = (r.signalAll signals).signalAll signals' :=
  List.foldl_append

/-- A change of a loop leaves alone which loops there are. -/
theorem keys_modifyLoop (r : Relay κ) (l : LoopId) (f : EventLoop κ → EventLoop κ) :
    (r.modifyLoop l f).loops.map (·.1) = r.loops.map (·.1) := by
  unfold modifyLoop
  simp only [List.map_map]
  apply List.map_congr_left
  intro entry _
  simp only [Function.comp_apply]
  split <;> rfl

/-- What happens to a relay beside the turns of loop `l`. A drain of it counts with at most `more`
numbers more than before. -/
structure Disturbed (follow : κ → Nat) (own : Bool) (l : LoopId) (more : Nat) (r r' : Relay κ) :
    Prop where
  keys : r'.loops.map (·.1) = r.loops.map (·.1)
  loop : ∀ loop, r.loop? l = some loop →
    ∃ loop', r'.loop? l = some loop' ∧ Tampered own loop loop'
  limit : Keyed r → drainLimit follow r' ≤ drainLimit follow r + more

section Disturbed

variable {follow : κ → Nat} {own : Bool} {l : LoopId} {m n : Nat} {r r' r'' : Relay κ}

/-- Nothing has happened. -/
theorem Disturbed.refl (r : Relay κ) : Disturbed follow own l 0 r r :=
  ⟨rfl, fun loop hfound => ⟨loop, hfound, .refl loop⟩, fun _ => Nat.le_refl _⟩

/-- No two loops have one number afterwards either. -/
theorem Disturbed.keyed (h : Disturbed follow own l n r r') (hkeyed : Keyed r) : Keyed r' := by
  unfold Keyed
  rwa [h.keys]

/-- One disturbance after the other, and the bounds add up. -/
theorem Disturbed.trans (h : Disturbed follow own l m r r') (h' : Disturbed follow own l n r' r'') :
    Disturbed follow own l (m + n) r r'' where
  keys := h'.keys.trans h.keys
  loop := by
    intro loop hfound
    obtain ⟨loop', hfound', hfirst⟩ := h.loop loop hfound
    obtain ⟨loop'', hfound'', hsecond⟩ := h'.loop loop' hfound'
    exact ⟨loop'', hfound'', hfirst.trans hsecond⟩
  limit := by
    intro hkeyed
    -- the second bound is counted from what the first one leaves
    have hfirst := h.limit hkeyed
    have hsecond := h'.limit (h.keyed hkeyed)
    omega

/-- A larger bound holds too. -/
theorem Disturbed.mono (h : Disturbed follow own l m r r') (hle : m ≤ n) :
    Disturbed follow own l n r r' :=
  ⟨h.keys, h.loop, fun hkeyed => Nat.le_trans (h.limit hkeyed) (Nat.add_le_add_left hle _)⟩

/-- A change of one loop, whichever it is. -/
theorem Disturbed.modifyLoop (l' : LoopId) {f : EventLoop κ → EventLoop κ}
    (htampered : ∀ loop, Tampered own loop (f loop))
    (hle : ∀ loop, (f loop).load follow ≤ loop.load follow + n) :
    Disturbed follow own l n r (r.modifyLoop l' f) where
  keys := keys_modifyLoop r l' f
  loop := by
    intro loop hfound
    rw [loop?_modifyLoop, hfound]
    split
    · exact ⟨f loop, rfl, htampered loop⟩
    · exact ⟨loop, rfl, .refl loop⟩
  limit := fun hkeyed => drainLimit_modifyLoop_le follow hkeyed hle

/-- The registry of calls in flight is apart from the loops. -/
theorem Disturbed.inFlight (h : Disturbed follow own l m r r') (hloops : r''.loops = r'.loops)
    (hle : r''.inFlight.length + m ≤ r'.inFlight.length + n) : Disturbed follow own l n r r'' where
  keys := by rw [hloops, h.keys]
  loop := by
    unfold loop?
    rw [hloops]
    exact h.loop
  limit := by
    intro hkeyed
    have hlimit := h.limit hkeyed
    unfold drainLimit at hlimit ⊢
    rw [hloops]
    omega

/-- A slot that is filled counts for nothing. -/
theorem load_fill (loop : EventLoop κ) (id : CallId) (payload : Completion) :
    (loop.fill id payload).load follow = loop.load follow := by
  have hsame : total (follow ·.callback) (loop.fill id payload).waiting =
      total (follow ·.callback) loop.waiting := by
    unfold EventLoop.fill
    induction loop.waiting with
    | nil => rfl
    | cons first rest ih =>
      rw [List.map_cons, total, total]
      simp only [ih]
      split <;> rfl
  unfold EventLoop.load
  rw [hsame]
  rfl

/-- A call that is withdrawn counts no more. -/
theorem load_withdraw_le (loop : EventLoop κ) (id : CallId) :
    (loop.withdraw id).load follow ≤ loop.load follow :=
  Nat.add_le_add_left (total_filter_le ..) _

/-- A signal moves its call from those in flight to those ready. -/
theorem Disturbed.signal (id : CallId) (payload : Completion) :
    Disturbed follow own l 0 r (r.signal id payload) := by
  cases hfound : (r.take id).1 with
  | none =>
    rw [signal_of_unknown hfound]
    exact .refl r
  | some l' =>
    rw [signal_of_known hfound]
    have hfilled : Disturbed follow own l 0 r (r.modifyLoop l' (·.fill id payload)) :=
      .modifyLoop l' (fun loop => .fill id payload (.refl _)) fun loop =>
        Nat.le_of_eq (load_fill loop id payload)
    -- its number counts once more in the queue, and once less in flight
    have hsent : Disturbed follow own l 1 (r.modifyLoop l' (·.fill id payload))
        ((r.modifyLoop l' (·.fill id payload)).modifyLoop l' fun loop => (loop.push id).unpark) := by
      refine .modifyLoop l' (fun loop => .send id (.refl _)) fun loop => ?_
      show (loop.ready ++ [id]).length + total _ loop.waiting ≤
        loop.ready.length + total _ loop.waiting + 1
      rw [List.length_append, List.length_singleton]
      omega
    refine (hfilled.trans hsent).inFlight ?_ ?_
    · rw [modifyLoop_modifyLoop, modifyLoop_modifyLoop, modifyLoop_modifyLoop]
      rfl
    · have hshorter : (r.inFlight.filter (·.1 != id)).length < r.inFlight.length :=
        List.length_filter_lt_length_iff_exists.mpr
          ⟨(id, l'), mem_inFlight_of_take hfound, by simp⟩
      exact hshorter

/-- Signals in a row, by induction on the list. -/
theorem Disturbed.signalAll (signals : List (CallId × Completion)) :
    Disturbed follow own l 0 r (r.signalAll signals) := by
  induction signals generalizing r with
  | nil => exact .refl r
  | cons signal rest ih => exact (Disturbed.signal signal.1 signal.2).trans ih

/-- A new call counts once itself, and as often as its callback goes on. -/
theorem Disturbed.begin (l' : LoopId) (callback : κ) (hmine : own = true) :
    Disturbed follow own l (follow callback + 1) r (r.begin l' callback).2 := by
  have hregistered : Disturbed follow own l (follow callback) r
      (r.modifyLoop l' (·.register r.nextCall callback)) := by
    refine .modifyLoop l' (fun loop => .register _ callback hmine (.refl _)) fun loop => ?_
    show loop.ready.length + total _ (loop.waiting ++ [_]) ≤ _
    rw [total_append]
    unfold EventLoop.load
    simp only [total]
    omega
  exact hregistered.inFlight rfl (by simp [Relay.begin, Relay.modifyLoop, Nat.add_comm,
    Nat.add_left_comm])

/-- A call that is withdrawn counts no more. -/
theorem Disturbed.withdraw (l' : LoopId) (id : CallId) (hmine : own = true) :
    Disturbed follow own l 0 r (r.withdraw l' id) := by
  have hwithdrawn : Disturbed follow own l 0 r (r.modifyLoop l' (·.withdraw id)) :=
    .modifyLoop l' (fun loop => .withdraw id hmine (.refl _)) fun loop => load_withdraw_le loop id
  exact hwithdrawn.inFlight rfl (Nat.add_le_add_right (List.length_filter_le ..) 0)

/-! ## Taking a number -/

/-- A loop whose queue is empty has nothing to claim, and no other loop has. -/
theorem pop?_of_claimNext?_eq_none {loop : EventLoop κ} (hfound : r.loop? l = some loop)
    (h : r.claimNext? l = none) : loop.pop? = none := by
  unfold claimNext? at h
  rw [hfound, Option.bind_some] at h
  cases hpopped : loop.pop? with
  | none => rfl
  | some next => simp [hpopped] at h

/-- Calls that a claimed callback still leads to. -/
def follows (follow : κ → Nat) (claimed : Option (κ × Completion)) : Nat :=
  (claimed.map fun (callback, _) => follow callback).getD 0

/-- What a claimed call counted for is gone with it. -/
theorem total_withdraw (follow : κ → Nat) (loop : EventLoop κ) (id : CallId) :
    total (follow ·.callback) (loop.withdraw id).waiting +
        follows follow ((loop.find? id).bind fun w =>
          w.slot.map fun payload => (w.callback, payload)) ≤
      total (follow ·.callback) loop.waiting := by
  cases hfound : loop.find? id with
  | none => exact total_filter_le ..
  | some w =>
    have hgone : (w.id != id) = false := by simpa using List.find?_some hfound
    have hcounted := total_filter_add (follow ·.callback) (·.id != id)
      (List.mem_of_find?_eq_some hfound)
      hgone
    cases hslot : w.slot with
    | none => simpa [follows, hslot, EventLoop.withdraw] using Nat.le_of_add_right_le hcounted
    | some payload => simpa [follows, hslot, EventLoop.withdraw] using hcounted

/-- A number that is taken off the queue does not count any more, and neither does what its callback
leads to. -/
theorem claimNext?_spec (follow : κ → Nat) {loop : EventLoop κ} {id : CallId}
    {claimed : Option (κ × Completion)}
    (hkeyed : Keyed r) (hfound : r.loop? l = some loop)
    (h : r.claimNext? l = some (id, claimed, r')) :
    ∃ popped, loop.pop? = some (id, popped) ∧ (popped.claim id).1 = claimed ∧
      r'.loop? l = some (popped.claim id).2 ∧ Keyed r' ∧
      drainLimit follow r' + follows follow claimed + 1 ≤ drainLimit follow r := by
  obtain ⟨loop', rest, hfound', hready, hclaimed, rfl⟩ := claimNext?_eq_some h
  obtain rfl : loop' = loop := Option.some.inj (hfound'.symm.trans hfound)
  have hpopped : loop'.pop? = some (id, { loop' with ready := rest }) := by
    unfold EventLoop.pop?
    rw [hready]
  refine ⟨_, hpopped, hclaimed.symm, ?_, ?_, ?_⟩
  · rw [loop?_modifyLoop, if_pos rfl, hfound]
    rfl
  · unfold Keyed
    rwa [keys_modifyLoop]
  -- one signal less is ready, and what a claimed callback may issue was counted with its entry
  · have hexact := drainLimit_modifyLoop follow
      (f := fun _ => ({ loop' with ready := rest } : EventLoop κ).withdraw id) hkeyed hfound
    have hclaims := total_withdraw follow loop' id
    rw [← hclaimed] at hclaims
    have hbefore : loop'.load follow =
        rest.length + 1 + total (follow ·.callback) loop'.waiting := by
      unfold EventLoop.load
      rw [hready, List.length_cons]
    have hafter : (({ loop' with ready := rest } : EventLoop κ).withdraw id).load follow =
        rest.length + total (follow ·.callback) (loop'.withdraw id).waiting := rfl
    omega

end Disturbed

end GridBridge.Relay
