import GridBridge.Proofs.Relay.Disturb
import GridBridge.Proofs.Relay.Numbers
import GridBridge.Proofs.Relay.Registry

/-!
# What a callback does

A callback may issue calls on any loop, open loops and drop others, and while it does that signals may
come in for any call. All of this is a list of **`Deed`**s on the relay. On the loop that runs the
callback a deed only adds: numbers behind those that are ready, and calls behind those that wait, with
numbers that were not in use (**`Grown`**). **`Fit`** is what a loop has to be like for that, and every
deed keeps it.
-/

namespace GridBridge.Relay

open Protocol

variable {κ : Type}

/-! ## Deeds -/

/-- One thing that a callback does, or that others do in the meantime. -/
inductive Deed (κ : Type) where
  /-- Issues a call. Signals come in before the issue returns, for this call too, and if it is `refused`
  it is taken back then. -/
  | issue (l : LoopId) (callback : κ) (meanwhile : List (CallId × Completion)) (refused : Bool)
  | signal (id : CallId) (payload : Completion)
  | openLoop
  | dropLoop (l : LoopId)

namespace Deed

/-- What a deed makes of a relay. -/
def apply (r : Relay κ) : Deed κ → Relay κ
  | .issue l callback meanwhile refused =>
    let called := (r.begin l callback).2.signalAll meanwhile
    if refused then called.withdraw l r.nextCall else called
  | .signal id payload => r.signal id payload
  | .openLoop => r.openLoop.2
  | .dropLoop l => r.dropLoop l

/-- Calls that a deed begins. -/
def begins : Deed κ → Nat
  | .issue .. => 1
  | _ => 0

/-- Calls that a deed begins, with those that their callbacks lead to. -/
def cost (follow : κ → Nat) : Deed κ → Nat
  | .issue _ callback _ _ => follow callback + 1
  | _ => 0

/-- The loop stays. -/
def Spares (l : LoopId) : Deed κ → Prop
  | .dropLoop l' => l' ≠ l
  | _ => True

/-- Loops are left as they are, and calls are issued with such callbacks only. -/
def Issues (P : κ → Prop) : Deed κ → Prop
  | .issue _ callback _ _ => P callback
  | .signal .. => True
  | .openLoop | .dropLoop _ => False

/-- To issue and to signal is to spare every loop. -/
theorem Issues.spares {P : κ → Prop} {deed : Deed κ} (h : deed.Issues P) (l : LoopId) :
    deed.Spares l := by
  cases deed with
  | dropLoop l' => exact h.elim
  | _ => trivial

end Deed

/-- What deeds in a row make of a relay. -/
def applyAll (r : Relay κ) (deeds : List (Deed κ)) : Relay κ := deeds.foldl Deed.apply r

/-- Deeds in a row are those of the first part and then those of the second. -/
theorem applyAll_append (r : Relay κ) (deeds deeds' : List (Deed κ)) :
    r.applyAll (deeds ++ deeds') = (r.applyAll deeds).applyAll deeds' :=
  List.foldl_append

/-- Signals in a row are deeds in a row. -/
theorem applyAll_signals (r : Relay κ) (signals : List (CallId × Completion)) :
    r.applyAll (signals.map fun signal => .signal signal.1 signal.2) = r.signalAll signals :=
  List.foldl_map

/-! ## The callbacks that wait -/

/-- Every call that a loop waits for has such a callback. -/
def EveryCallback (P : κ → Prop) (r : Relay κ) : Prop := ∀ l w, r.WaitsOn l w → P w.callback

namespace EveryCallback

variable {P : κ → Prop} {r after : Relay κ} {l : LoopId}

/-- Callbacks of a kind are callbacks of any wider kind. -/
theorem mono {P' : κ → Prop} (h : r.EveryCallback P) (hP : ∀ callback, P callback → P' callback) :
    r.EveryCallback P' := fun l w hwaits => hP _ (h l w hwaits)

/-- A change of a loop that waits for nothing new but what has such a callback. -/
theorem modifyLoop (h : r.EveryCallback P) {f : EventLoop κ → EventLoop κ}
    (hf : ∀ loop, r.loop? l = some loop → ∀ w ∈ (f loop).waiting,
      P w.callback ∨ ∃ w' ∈ loop.waiting, w'.callback = w.callback) :
    (r.modifyLoop l f).EveryCallback P := by
  intro l' w hwaits
  rw [waitsOn_modifyLoop] at hwaits
  split at hwaits
  · obtain ⟨loop, hfound, hmem⟩ := hwaits
    rcases hf loop hfound w hmem with hnew | ⟨w', hold, hsame⟩
    · exact hnew
    · exact hsame ▸ h l w' ⟨loop, hfound, hold⟩
  · exact h l' w hwaits

/-- The registry of calls in flight is apart from the loops. -/
theorem of_loops (h : r.EveryCallback P) (hloops : after.loops = r.loops) : after.EveryCallback P := by
  intro l w hwaits
  unfold WaitsOn loop? at hwaits
  rw [hloops] at hwaits
  exact h l w hwaits

/-- A slot that is filled leaves the callback of its call. -/
theorem fill (h : r.EveryCallback P) (id : CallId) (payload : Completion) :
    (r.modifyLoop l (·.fill id payload)).EveryCallback P := by
  refine h.modifyLoop fun loop _ w hmem => .inr ?_
  obtain ⟨w', hold, rfl⟩ := List.mem_map.mp hmem
  refine ⟨w', hold, ?_⟩
  split <;> rfl

/-- To withdraw a call leaves the callbacks of the others. -/
theorem withdraw (h : r.EveryCallback P) (id : CallId) : (r.withdraw l id).EveryCallback P := by
  have hforgot : ({ r with inFlight := r.inFlight.filter (·.1 != id) } : Relay κ).EveryCallback P :=
    h.of_loops rfl
  exact hforgot.modifyLoop fun _ _ w hmem => .inr ⟨w, (mem_waiting_withdraw.mp hmem).1, rfl⟩

/-- A signal brings no callback. -/
theorem signal (h : r.EveryCallback P) (id : CallId) (payload : Completion) :
    (r.signal id payload).EveryCallback P := by
  cases hknown : (r.take id).1 with
  | none =>
    rw [signal_of_unknown hknown]
    exact h
  | some l =>
    rw [signal_of_known hknown]
    have htaken : (r.take id).2.EveryCallback P := h.of_loops rfl
    -- neither the queue nor the token has to do with what waits
    refine (((htaken.fill id payload).modifyLoop ?_).modifyLoop ?_)
    · exact fun _ _ w hmem => .inr ⟨w, hmem, rfl⟩
    · exact fun _ _ w hmem => .inr ⟨w, hmem, rfl⟩

/-- Nor do signals in a row. -/
theorem signalAll (h : r.EveryCallback P) (signals : List (CallId × Completion)) :
    (r.signalAll signals).EveryCallback P := by
  induction signals generalizing r with
  | nil => exact h
  | cons signal rest ih => exact ih (h.signal signal.1 signal.2)

/-- A call that begins waits with its own callback beside the others. -/
theorem begin (h : r.EveryCallback P) {callback : κ} (hP : P callback) :
    (r.begin l callback).2.EveryCallback P := by
  have hregistered : (r.modifyLoop l (·.register r.nextCall callback)).EveryCallback P := by
    refine h.modifyLoop fun loop _ w hmem => ?_
    rcases List.mem_append.mp hmem with hold | hnew
    · exact .inr ⟨w, hold, rfl⟩
    · exact .inl (List.mem_singleton.mp hnew ▸ hP)
  exact hregistered.of_loops rfl

/-- Taking a number off a queue lets a call go, and the callback to be run is one that waited. -/
theorem claim {id : CallId} {claimed : Option (κ × Completion)} (h : r.EveryCallback P)
    (hnext : r.claimNext? l = some (id, claimed, after)) :
    after.EveryCallback P ∧ ∀ callback payload, claimed = some (callback, payload) → P callback := by
  refine ⟨fun l' w hwaits => h l' w ((waitsOn_claimNext hnext).mp hwaits).1, ?_⟩
  rintro callback payload rfl
  obtain ⟨loop, rest, hfound, -, hclaimed, -⟩ := claimNext?_eq_some hnext
  obtain ⟨w, hsearch, hpair⟩ := Option.bind_eq_some_iff.mp hclaimed.symm
  obtain ⟨_, -, hpair⟩ := Option.map_eq_some_iff.mp hpair
  obtain ⟨rfl, -⟩ := Prod.mk.inj hpair
  exact h l w ⟨loop, hfound, List.mem_of_find?_eq_some hsearch⟩

/-- A deed that issues such callbacks only. -/
theorem deed (h : r.EveryCallback P) {deed : Deed κ} (hissues : deed.Issues P) :
    (deed.apply r).EveryCallback P := by
  cases deed with
  | issue l callback meanwhile refused =>
    have hcalled := (h.begin (l := l) hissues).signalAll meanwhile
    cases refused with
    | false => exact hcalled
    | true => exact hcalled.withdraw r.nextCall
  | signal id payload => exact h.signal id payload
  | openLoop | dropLoop l => exact hissues.elim

/-- Deeds in a row that issue such callbacks only. -/
theorem deeds (h : r.EveryCallback P) {deeds : List (Deed κ)}
    (hissues : ∀ deed ∈ deeds, deed.Issues P) : (r.applyAll deeds).EveryCallback P := by
  induction deeds generalizing r with
  | nil => exact h
  | cons deed rest ih =>
    exact ih (h.deed (hissues deed (List.mem_cons_self ..))) fun deed hmem =>
      hissues deed (List.mem_cons_of_mem _ hmem)

end EveryCallback

/-! ## The loops that are listed -/

/-- Loops have numbers of their own, and each was given out. -/
structure Listed (r : Relay κ) : Prop where
  keyed : Keyed r
  below : ∀ entry ∈ r.loops, entry.1 < r.nextLoop

/-- What happens within a loop leaves the numbers of loops alone. -/
theorem Listed.modifyLoop {r : Relay κ} (h : Listed r) (l : LoopId) (f : EventLoop κ → EventLoop κ) :
    Listed (r.modifyLoop l f) where
  keyed := by
    unfold Keyed
    rw [keys_modifyLoop]
    exact h.keyed
  below := by
    intro entry hmem
    have hkey : entry.1 ∈ r.loops.map (·.1) := keys_modifyLoop r l f ▸ List.mem_map_of_mem hmem
    obtain ⟨old, hold, hsame⟩ := List.mem_map.mp hkey
    exact hsame ▸ h.below old hold

/-- The registry of calls in flight is apart from the loops. -/
theorem Listed.of_loops {r r' : Relay κ} (h : Listed r) (hloops : r'.loops = r.loops)
    (hnext : r'.nextLoop = r.nextLoop) : Listed r' := by
  refine ⟨?_, ?_⟩
  · unfold Keyed
    rw [hloops]
    exact h.keyed
  · rw [hloops, hnext]
    exact h.below

/-- A new loop takes the next number. -/
theorem Listed.openLoop {r : Relay κ} (h : Listed r) : Listed r.openLoop.2 where
  keyed := by
    -- the new number is above all others
    refine List.nodup_cons.mpr ⟨fun hmem => ?_, h.keyed⟩
    obtain ⟨entry, hmem, hsame⟩ := List.mem_map.mp hmem
    exact Nat.lt_irrefl _ (hsame ▸ h.below entry hmem)
  below := by
    intro entry hmem
    rcases List.mem_cons.mp hmem with rfl | hold
    · exact Nat.lt_succ_self _
    · exact Nat.lt_succ_of_lt (h.below entry hold)

/-- The loops that are left keep their numbers. -/
theorem Listed.dropLoop {r : Relay κ} (h : Listed r) (l : LoopId) : Listed (r.dropLoop l) where
  keyed := h.keyed.sublist (List.filter_sublist.map _)
  below := fun entry hmem => h.below entry (List.mem_of_mem_filter hmem)

/-- A loop that is listed is the one that is found under its number. -/
theorem Listed.loop?_of_mem {r : Relay κ} (h : Listed r) {l : LoopId} {loop : EventLoop κ}
    (hmem : (l, loop) ∈ r.loops) : r.loop? l = some loop := by
  obtain ⟨before, after, hsplit⟩ := List.append_of_mem hmem
  refine List.lookup_eq_some_iff.mpr ⟨before, after, hsplit, fun entry hentry => ?_⟩
  have hkeyed : (r.loops.map (·.1)).Nodup := h.keyed
  rw [hsplit, List.map_append, List.map_cons, List.nodup_append] at hkeyed
  have hne : entry.1 ≠ l :=
    hkeyed.2.2 _ (List.mem_map_of_mem hentry) _ (List.mem_cons_self ..)
  simpa using hne.symm

/-- Induction on the steps that lead there. -/
theorem listed_of_reachable {t : Traffic κ} (hreach : Reachable t) : Listed t.relay := by
  induction hreach with
  | fresh => exact ⟨List.nodup_nil, nofun⟩
  | step _ hmove ih =>
    cases hmove with
    | openLoop => exact ih.openLoop
    | dropLoop l => exact ih.dropLoop l
    | issue l callback _ => exact (ih.modifyLoop l (·.register _ callback)).of_loops rfl rfl
    | fail call _ => exact (ih.modifyLoop call.loop (·.withdraw call.id)).of_loops rfl rfl
    | ignore | take => exact ih.of_loops rfl rfl
    | fill c => exact ih.modifyLoop c.loop (·.fill c.id c.payload)
    | push c => exact ih.modifyLoop c.loop (·.push c.id)
    | unpark c => exact ih.modifyLoop c.loop (·.unpark)
    | deliver l id claimed after hnext =>
      obtain ⟨loop, rest, -, -, -, rfl⟩ := claimNext?_eq_some hnext
      exact ih.modifyLoop l fun _ => ({ loop with ready := rest } : EventLoop κ).withdraw id

/-! ## The loop that runs the callback -/

/-- A relay in which so many calls were begun, and the loop with this number: every number that it
holds was handed out, it waits for each call once, and a call whose number is ready has a payload. -/
structure Fit (n : Nat) (l : LoopId) (r : Relay κ) (loop : EventLoop κ) : Prop where
  found : r.loop? l = some loop
  keyed : Keyed r
  below : ∀ entry ∈ r.loops, entry.1 < r.nextLoop
  numbered : Numbered n r
  readyKnown : ∀ id ∈ loop.ready, id.toNat ≤ n
  once : (loop.waiting.map (·.id)).Nodup
  filled : ∀ w ∈ loop.waiting, w.id ∈ loop.ready → w.slot.isSome

/-- What a loop gains: numbers behind those that are ready, and calls behind those that wait. A slot
that was filled stays as it is. -/
structure Grown (n n' : Nat) (loop loop' : EventLoop κ) (sent begun : List CallId) : Prop where
  le : n ≤ n'
  ready : loop'.ready = loop.ready ++ sent
  ids : loop'.waiting.map (·.id) = loop.waiting.map (·.id) ++ begun
  slots : ∀ w' ∈ loop'.waiting, w'.id ∈ begun ∨ ∃ w ∈ loop.waiting, w.id = w'.id ∧
    w.callback = w'.callback ∧ ∀ payload, w.slot = some payload → w'.slot = some payload
  fresh : ∀ id ∈ begun, n < id.toNat

/-- A loop that is left alone has gained nothing. -/
theorem Grown.refl (n : Nat) (loop : EventLoop κ) : Grown n n loop loop [] [] where
  le := Nat.le_refl n
  ready := (List.append_nil _).symm
  ids := (List.append_nil _).symm
  slots w' hmem := .inr ⟨w', hmem, rfl, rfl, fun _ hslot => hslot⟩
  fresh := nofun

/-- What a loop gains step by step it gains in all, in this order. -/
theorem Grown.trans {n n' n'' : Nat} {loop loop' loop'' : EventLoop κ}
    {sent sent' begun begun' : List CallId} (h : Grown n n' loop loop' sent begun)
    (h' : Grown n' n'' loop' loop'' sent' begun') :
    Grown n n'' loop loop'' (sent ++ sent') (begun ++ begun') where
  le := Nat.le_trans h.le h'.le
  ready := by rw [h'.ready, h.ready, List.append_assoc]
  ids := by rw [h'.ids, h.ids, List.append_assoc]
  slots := by
    intro w'' hmem
    -- a call that waits at the end came in the second step, in the first, or was there before
    rcases h'.slots w'' hmem with hnew | ⟨w', hmem', hsame', hcallback', hkept'⟩
    · exact .inl (List.mem_append_right _ hnew)
    · rcases h.slots w' hmem' with hnew | ⟨w, hmem, hsame, hcallback, hkept⟩
      · exact .inl (List.mem_append_left _ (hsame' ▸ hnew))
      · exact .inr ⟨w, hmem, hsame.trans hsame', hcallback.trans hcallback',
          fun payload hslot => hkept' payload (hkept payload hslot)⟩
  fresh := by
    intro id hmem
    rcases List.mem_append.mp hmem with hold | hnew
    · exact h.fresh id hold
    · exact Nat.lt_of_le_of_lt h.le (h'.fresh id hnew)

namespace Fit

variable {n : Nat} {l l' : LoopId} {r : Relay κ} {loop : EventLoop κ}

/-- A number that the loop waits for was handed out. -/
theorem waitsKnown (h : Fit n l r loop) {w : Waiting κ} (hmem : w ∈ loop.waiting) : w.id.toNat ≤ n := by
  refine h.numbered.known w.id (mem_numbers.mpr (.inr ⟨(l, loop), ?_, w, hmem, rfl⟩))
  obtain ⟨before, after, hsplit, -⟩ := List.lookup_eq_some_iff.mp h.found
  simp [hsplit]

/-- A change elsewhere in the relay. -/
theorem elsewhere (h : Fit n l r loop) {n' : Nat} {r' : Relay κ} (hfound : r'.loop? l = some loop)
    (hkeyed : Keyed r') (hbelow : ∀ entry ∈ r'.loops, entry.1 < r'.nextLoop)
    (hnumbered : Numbered n' r') (hle : n ≤ n') : Fit n' l r' loop :=
  ⟨hfound, hkeyed, hbelow, hnumbered, fun id hready => Nat.le_trans (h.readyKnown id hready) hle,
    h.once, h.filled⟩

/-- What a fit loop asks of the other loops is that they are listed. -/
theorem listed (h : Fit n l r loop) : Listed r := ⟨h.keyed, h.below⟩

/-! ## Signals -/

/-- What a signal does to the loop of its call. -/
def signalled (loop : EventLoop κ) (id : CallId) (payload : Completion) : EventLoop κ :=
  ((loop.fill id payload).push id).unpark

/-- The calls that wait afterwards are those from before, one of them with its slot filled. -/
theorem mem_signalled {id : CallId} {payload : Completion} {w' : Waiting κ} :
    w' ∈ (signalled loop id payload).waiting ↔ ∃ w ∈ loop.waiting,
      (if w.id = id then { w with slot := some (w.slot.getD payload) } else w) = w' :=
  List.mem_map

/-- A loop gains by a signal one number in its queue. -/
theorem grown_signalled (n : Nat) (loop : EventLoop κ) (id : CallId) (payload : Completion) :
    Grown n n loop (signalled loop id payload) [id] [] where
  le := Nat.le_refl n
  ready := rfl
  ids := by
    rw [List.append_nil]
    exact ids_fill loop id payload
  slots := by
    intro w' hmem
    obtain ⟨w, hwaits, rfl⟩ := mem_signalled.mp hmem
    refine .inr ⟨w, hwaits, ?_⟩
    split
    · refine ⟨rfl, rfl, fun payload' hslot => ?_⟩
      rw [hslot]
      rfl
    · exact ⟨rfl, rfl, fun _ hslot => hslot⟩
  fresh := nofun

/-- A slot is filled before its number is put in the queue. -/
theorem filled_signalled (h : Fit n l r loop) (id : CallId) (payload : Completion) :
    ∀ w' ∈ (signalled loop id payload).waiting, w'.id ∈ (signalled loop id payload).ready →
      w'.slot.isSome := by
  intro w' hmem hready
  obtain ⟨w, hwaits, rfl⟩ := mem_signalled.mp hmem
  by_cases hmine : w.id = id
  · rw [if_pos hmine]
    rfl
  · rw [if_neg hmine] at hready ⊢
    refine h.filled w hwaits ((List.mem_append.mp hready).resolve_right fun hnew => ?_)
    exact hmine (List.mem_singleton.mp hnew)

/-- A signal for a call in flight is one change of the loop of that call. -/
theorem signal_of_listed {id : CallId} (payload : Completion)
    (hknown : r.inFlight.lookup id = some l') :
    r.signal id payload =
      (r.take id).2.modifyLoop l' (signalled · id payload) := by
  rw [signal_of_known hknown, modifyLoop_modifyLoop, modifyLoop_modifyLoop]
  rfl

/-- A signal adds its number to the queue of its loop, once the slot is filled. -/
theorem signal (h : Fit n l r loop) (id : CallId) (payload : Completion) :
    ∃ loop' sent, Fit n l (r.signal id payload) loop' ∧ Grown n n loop loop' sent [] := by
  cases hknown : r.inFlight.lookup id with
  | none =>
    refine ⟨loop, [], ?_, .refl n loop⟩
    rw [signal_of_unknown hknown]
    exact h
  | some l' =>
    have hnumbered := h.numbered.sheds (sheds_signal r id payload)
    rw [signal_of_listed payload hknown] at hnumbered ⊢
    obtain ⟨hkeyed, hbelow⟩ := h.listed.modifyLoop l' (signalled · id payload)
    -- the call may be one of this loop or of another
    by_cases hhere : l = l'
    · subst hhere
      have hgrown := grown_signalled n loop id payload
      have hlisted : (id, l) ∈ r.inFlight := mem_inFlight_of_take hknown
      refine ⟨signalled loop id payload, [id], ⟨?_, hkeyed, hbelow, hnumbered, ?_, ?_,
        h.filled_signalled id payload⟩, hgrown⟩
      · rw [loop?_modifyLoop, if_pos rfl]
        exact congrArg (Option.map _) h.found
      · intro id' hready
        rcases List.mem_append.mp hready with hold | hnew
        · exact h.readyKnown id' hold
        · exact List.mem_singleton.mp hnew ▸ h.numbered.known id (mem_numbers.mpr (.inl ⟨l, hlisted⟩))
      · rw [hgrown.ids, List.append_nil]
        exact h.once
    · refine ⟨loop, [], h.elsewhere ?_ hkeyed hbelow hnumbered (Nat.le_refl n), .refl n loop⟩
      rw [loop?_modifyLoop, if_neg hhere]
      exact h.found

/-- Signals in a row add their numbers in a row. -/
theorem signalAll (h : Fit n l r loop) (signals : List (CallId × Completion)) :
    ∃ loop' sent, Fit n l (r.signalAll signals) loop' ∧ Grown n n loop loop' sent [] := by
  induction signals generalizing r loop with
  | nil => exact ⟨loop, [], h, .refl n loop⟩
  | cons signal rest ih =>
    obtain ⟨loop', sent, hfit, hgrown⟩ := h.signal signal.1 signal.2
    obtain ⟨loop'', sent', hfit', hgrown'⟩ := ih hfit
    exact ⟨loop'', sent ++ sent', hfit', hgrown.trans hgrown'⟩

/-! ## Issues -/

/-- The number that the next call gets is one above those that were begun. -/
theorem toNat_nextCall (h : Fit n l r loop) (hroom : n + 1 < 2 ^ 64) : r.nextCall.toNat = n + 1 := by
  rw [h.numbered.next, UInt64.toNat_ofNat', Nat.mod_eq_of_lt hroom]

/-- A call that is begun waits behind the others, if it is on this loop. -/
theorem begin (h : Fit n l r loop) (hroom : n + 1 < 2 ^ 64) (l' : LoopId) (callback : κ) :
    ∃ loop', Fit (n + 1) l (r.begin l' callback).2 loop' ∧
      Grown n (n + 1) loop loop' [] (if l = l' then [r.nextCall] else []) := by
  have hnumber := h.toNat_nextCall hroom
  have hnumbered := h.numbered.begin hroom l' callback
  obtain ⟨hkeyed, hbelow⟩ := h.listed.modifyLoop l' (·.register r.nextCall callback)
  have hfound := loop?_modifyLoop r l' l (·.register r.nextCall callback)
  rw [h.found] at hfound
  by_cases hhere : l = l'
  · rw [if_pos hhere] at hfound ⊢
    -- what waits has a number that was handed out before
    have hunused : ∀ w ∈ loop.waiting, w.id ≠ r.nextCall := by
      intro w hmem hsame
      have hknown := h.waitsKnown hmem
      rw [hsame] at hknown
      omega
    refine ⟨loop.register r.nextCall callback, ⟨hfound, hkeyed, hbelow, hnumbered, ?_, ?_, ?_⟩, ?_⟩
    · exact fun id hready => Nat.le_succ_of_le (h.readyKnown id hready)
    -- no call on the loop has the new number
    · unfold EventLoop.register
      rw [List.map_append, List.nodup_append]
      refine ⟨h.once, by simp, ?_⟩
      intro id hmem id' hnew hsame
      obtain ⟨w, hwaits, rfl⟩ := List.mem_map.mp hmem
      exact hunused w hwaits (hsame.trans (List.mem_singleton.mp hnew))
    · intro w hmem hready
      rcases List.mem_append.mp hmem with hold | hnew
      · exact h.filled w hold hready
      · obtain rfl := List.mem_singleton.mp hnew
        have hknown : r.nextCall.toNat ≤ n := h.readyKnown _ hready
        omega
    · refine ⟨Nat.le_succ n, (List.append_nil _).symm, by simp [EventLoop.register], ?_, ?_⟩
      · intro w hmem
        rcases List.mem_append.mp hmem with hold | hnew
        · exact .inr ⟨w, hold, rfl, rfl, fun _ hslot => hslot⟩
        · exact .inl (by simp [List.mem_singleton.mp hnew])
      · intro id hmem
        obtain rfl := List.mem_singleton.mp hmem
        omega
  · rw [if_neg hhere] at hfound ⊢
    have hsame := Grown.refl n loop
    exact ⟨loop, h.elsewhere hfound hkeyed hbelow hnumbered (Nat.le_succ n),
      ⟨Nat.le_succ n, hsame.ready, hsame.ids, hsame.slots, hsame.fresh⟩⟩

/-- A call that is taken back in the end was never there, but its number may be ready. -/
theorem withdraw {n₀ : Nat} {loop₀ : EventLoop κ} {sent : List CallId} {id : CallId}
    (h : Fit n l r loop)
    (hbefore : ∀ w ∈ loop₀.waiting, w.id.toNat ≤ n₀) (hnew : n₀ < id.toNat)
    (hgrown : Grown n₀ n loop₀ loop sent (if l = l' then [id] else [])) :
    ∃ loop', Fit n l (r.withdraw l' id) loop' ∧ Grown n₀ n loop₀ loop' sent [] := by
  have hnumbered := h.numbered.sheds (sheds_withdraw r l' id)
  obtain ⟨hkeyed, hbelow⟩ := h.listed.modifyLoop l' (·.withdraw id)
  have hfound := loop?_modifyLoop { r with inFlight := r.inFlight.filter (·.1 != id) } l' l
    (·.withdraw id)
  rw [show ({ r with inFlight := r.inFlight.filter (·.1 != id) } : Relay κ).loop? l = some loop from
    h.found] at hfound
  by_cases hhere : l = l'
  · rw [if_pos hhere] at hfound hgrown
    refine ⟨loop.withdraw id, ⟨hfound, hkeyed, hbelow, hnumbered, h.readyKnown,
      nodup_withdraw h.once, ?_⟩, ?_⟩
    · exact fun w hmem => h.filled w (mem_waiting_withdraw.mp hmem).1
    · refine ⟨hgrown.le, hgrown.ready, ?_, ?_, nofun⟩
      -- only the call itself has its number, so those from before stay
      · have hkept : (loop.withdraw id).waiting.map (·.id) =
            (loop.waiting.map (·.id)).filter (· != id) := by
          rw [List.filter_map]
          rfl
        rw [hkept, hgrown.ids, List.filter_append, List.append_nil]
        have hold : (loop₀.waiting.map (·.id)).filter (· != id) = loop₀.waiting.map (·.id) := by
          refine List.filter_eq_self.mpr fun id' hmem => bne_iff_ne.mpr ?_
          rintro rfl
          obtain ⟨w, hmem, hsame⟩ := List.mem_map.mp hmem
          have hknown := hbefore w hmem
          rw [hsame] at hknown
          omega
        simp [hold]
      · intro w hmem
        obtain ⟨hmem, hother⟩ := mem_waiting_withdraw.mp hmem
        exact .inr ((hgrown.slots w hmem).resolve_left (by simpa using hother))
  · rw [if_neg hhere] at hfound hgrown
    exact ⟨loop, h.elsewhere hfound hkeyed hbelow hnumbered (Nat.le_refl n), hgrown⟩

/-! ## Any deed -/

/-- Whatever it is, a deed that spares the loop leaves it fit and only adds to it. -/
theorem deed (h : Fit n l r loop) (deed : Deed κ) (hroom : n + deed.begins < 2 ^ 64)
    (hspares : deed.Spares l) :
    ∃ loop' sent begun, Fit (n + deed.begins) l (deed.apply r) loop' ∧
      Grown n (n + deed.begins) loop loop' sent begun := by
  cases deed with
  | issue l' callback meanwhile refused =>
    have hnumber : r.nextCall.toNat = n + 1 := h.toNat_nextCall hroom
    obtain ⟨loop₁, hfit₁, hgrown₁⟩ := h.begin hroom l' callback
    obtain ⟨loop₂, sent, hfit₂, hgrown₂⟩ := hfit₁.signalAll meanwhile
    have hgrown := hgrown₁.trans hgrown₂
    rw [List.nil_append, List.append_nil] at hgrown
    cases refused with
    | false => exact ⟨loop₂, sent, _, hfit₂, hgrown⟩
    | true =>
      -- a refused call is taken back, though its number may be ready by now
      obtain ⟨loop₃, hfit₃, hgrown₃⟩ := hfit₂.withdraw (fun w => h.waitsKnown) (by omega) hgrown
      exact ⟨loop₃, sent, [], hfit₃, hgrown₃⟩
  | signal id payload =>
    obtain ⟨loop', sent, hfit, hgrown⟩ := h.signal id payload
    exact ⟨loop', sent, [], hfit, hgrown⟩
  | openLoop =>
    -- the new loop has a number of its own
    have hfresh : l ≠ r.nextLoop := by
      rintro rfl
      obtain ⟨before, after, hsplit, -⟩ := List.lookup_eq_some_iff.mp h.found
      exact Nat.lt_irrefl _ (h.below (r.nextLoop, loop) (by simp [hsplit]))
    obtain ⟨hkeyed, hbelow⟩ := h.listed.openLoop
    refine ⟨loop, [], [], h.elsewhere ?_ hkeyed hbelow (h.numbered.sheds (sheds_openLoop r))
      (Nat.le_refl n), .refl n loop⟩
    show r.openLoop.2.loop? l = some loop
    rw [loop?_openLoop, if_neg hfresh]
    exact h.found
  | dropLoop l' =>
    obtain ⟨hkeyed, hbelow⟩ := h.listed.dropLoop l'
    refine ⟨loop, [], [], h.elsewhere ?_ hkeyed hbelow (h.numbered.sheds (sheds_dropLoop r l'))
      (Nat.le_refl n), .refl n loop⟩
    show (r.dropLoop l').loop? l = some loop
    rw [loop?_dropLoop, if_neg (Ne.symm hspares)]
    exact h.found

/-- Deeds in a row begin so many calls. -/
theorem deeds (h : Fit n l r loop) (deeds : List (Deed κ))
    (hroom : n + total Deed.begins deeds < 2 ^ 64)
    (hspares : ∀ deed ∈ deeds, deed.Spares l) :
    ∃ loop' sent begun, Fit (n + total Deed.begins deeds) l (r.applyAll deeds) loop' ∧
      Grown n (n + total Deed.begins deeds) loop loop' sent begun := by
  induction deeds generalizing n r loop with
  | nil => exact ⟨loop, [], [], h, .refl n loop⟩
  | cons deed rest ih =>
    rw [total] at hroom ⊢
    rw [← Nat.add_assoc] at hroom ⊢
    obtain ⟨loop', sent, begun, hfit, hgrown⟩ :=
      h.deed deed (by omega) (hspares deed (List.mem_cons_self ..))
    obtain ⟨loop'', sent', begun', hfit', hgrown'⟩ :=
      ih hfit hroom fun deed hmem => hspares deed (List.mem_cons_of_mem _ hmem)
    exact ⟨loop'', sent ++ sent', begun ++ begun', hfit', hgrown.trans hgrown'⟩

end Fit

/-! ## Relays that are reached -/

/-- **Every live loop of a relay that is reached is fit** for its callbacks. -/
theorem fit_of_reachable {t : Traffic κ} (hreach : Reachable t) (hbound : t.begun < 2 ^ 64)
    {l : LoopId} {loop : EventLoop κ} (hfound : t.relay.loop? l = some loop) :
    Fit t.begun l t.relay loop := by
  have hsound := sound_of_reachable hreach hbound
  have htidy := tidy_of_reachable hreach hbound
  have hlisted := listed_of_reachable hreach
  exact {
    found := hfound
    keyed := hlisted.keyed
    below := hlisted.below
    -- a number in use is either in flight or waiting, and what is in flight waits somewhere too
    numbered := by
      refine ⟨hsound.nextCall, fun id hmem => ?_⟩
      rcases mem_numbers.mp hmem with ⟨l', hflight⟩ | ⟨⟨l', loop'⟩, hentry, w, hwaits, rfl⟩
      · obtain ⟨e, hwaits, rfl⟩ := hsound.flightWaits hflight
        exact hsound.waitsKnown hwaits
      · exact hsound.waitsKnown ⟨loop', hlisted.loop?_of_mem hentry, hwaits⟩
    readyKnown := fun id hready => hsound.takenKnown (hsound.readyTaken ⟨loop, hfound, hready⟩)
    once := htidy.waitingOnce hfound
    -- a signalled call's slot is filled before the signal is sent
    filled := by
      intro w hmem hready
      obtain ⟨payload, hslot, -⟩ := hsound.slot_of_ready ⟨loop, hfound, hmem⟩ ⟨loop, hfound, hready⟩
      rw [hslot]
      rfl }

/-! ## What a drain can still take -/

section Limit

variable {follow : κ → Nat} {n : Nat} {l : LoopId} {r : Relay κ} {loop : EventLoop κ}

/-- To any loop, issues and signals are what its owner may do beside its turns. -/
theorem Disturbed.deed {P : κ → Prop} {deed : Deed κ} (hissues : deed.Issues P) :
    Disturbed follow true l (deed.cost follow) r (deed.apply r) := by
  cases deed with
  | issue l' callback meanwhile refused =>
    -- signals move calls from those in flight to those ready, so they cost nothing
    have hcalled : Disturbed follow true l (follow callback + 1) r
        ((r.begin l' callback).2.signalAll meanwhile) :=
      (Disturbed.begin l' callback rfl).trans (.signalAll meanwhile)
    cases refused with
    | false => exact hcalled
    | true => exact hcalled.trans (.withdraw l' r.nextCall rfl)
  | signal id payload => exact .signal id payload
  | openLoop | dropLoop l' => exact hissues.elim

/-- Deeds in a row disturb as much as they cost together. -/
theorem Disturbed.deeds {P : κ → Prop} {deeds : List (Deed κ)}
    (hissues : ∀ deed ∈ deeds, deed.Issues P) :
    Disturbed follow true l (total (Deed.cost follow) deeds) r (r.applyAll deeds) := by
  induction deeds generalizing r with
  | nil => exact .refl r
  | cons deed rest ih =>
    exact (Disturbed.deed (hissues deed (List.mem_cons_self ..))).trans
      (ih fun deed hmem => hissues deed (List.mem_cons_of_mem _ hmem))

/-- A deed adds what it costs to the numbers that a drain can take. -/
theorem drainLimit_deed (hkeyed : Keyed r) (deed : Deed κ) :
    drainLimit follow (deed.apply r) ≤ drainLimit follow r + deed.cost follow := by
  cases deed with
  | issue l' callback meanwhile refused =>
    have hissues : (Deed.issue l' callback meanwhile refused).Issues fun _ => True := trivial
    exact (Disturbed.deed (l := l') hissues).limit hkeyed
  | signal id payload =>
    have hissues : (Deed.signal id payload : Deed κ).Issues fun _ => True := trivial
    exact (Disturbed.deed (l := 0) hissues).limit hkeyed
  | openLoop =>
    have hsame : drainLimit follow r.openLoop.2 = drainLimit follow r := by
      simp [drainLimit, Relay.openLoop, total]
    exact Nat.le_of_eq hsame
  -- a loop that is dropped takes numbers away, in flight and ready
  | dropLoop l' =>
    have hflights := List.length_filter_le
      (fun flight => !(((r.loop? l').map (·.waiting.map (·.id))).getD []).contains flight.1) r.inFlight
    have hloops := total_filter_le
      (fun entry : LoopId × EventLoop κ =>
        entry.2.ready.length + total (follow ·.callback) entry.2.waiting)
      (·.1 != l') r.loops
    have hless : drainLimit follow (r.dropLoop l') ≤ drainLimit follow r :=
      Nat.add_le_add hflights hloops
    exact hless

/-- Deeds in a row add what they cost together. -/
theorem Fit.drainLimit_deeds (h : Fit n l r loop) (deeds : List (Deed κ))
    (hroom : n + total Deed.begins deeds < 2 ^ 64) (hspares : ∀ deed ∈ deeds, deed.Spares l) :
    drainLimit follow (r.applyAll deeds) ≤ drainLimit follow r + total (Deed.cost follow) deeds := by
  induction deeds generalizing n r loop with
  | nil => exact Nat.le_refl _
  | cons deed rest ih =>
    rw [total] at hroom ⊢
    rw [← Nat.add_assoc] at hroom
    obtain ⟨loop', -, -, hfit, -⟩ := h.deed deed (by omega) (hspares deed (List.mem_cons_self ..))
    have hfirst : drainLimit follow (deed.apply r) ≤ _ := drainLimit_deed h.keyed deed
    have hlater := ih hfit hroom fun deed hmem => hspares deed (List.mem_cons_of_mem _ hmem)
    show drainLimit follow ((deed.apply r).applyAll rest) ≤ _
    omega

end Limit

end GridBridge.Relay
