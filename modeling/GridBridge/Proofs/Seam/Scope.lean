import GridBridge.Proofs.Seam.Trace
import Mathlib.Data.List.Induction

/-!
# Scopes: local references that do not outlive an operation

Events are **`Scoped`** if every call is given only what is held at that point, no durable reference
is given back, and every local reference is given back as often as it was handed out.
**`scoped_of_kept`** reads this off a ledger that ends without locals.

Where the runtime hands out only new references (**`Fresh`**), counting comes down to single events:
each local reference is given back exactly once after it came, and no call is given it after that
(**`Scoped.given_back_once`**).
-/

namespace GridBridge.Seam.Script

open Protocol

/-! ## Scoped events -/

/-- The call is given the reference, to look behind it or to give it back. -/
def Event.Gets : Event → Ref → Prop
  | .called request _, r => r ∈ request.uses ∨ request.lostLocal = r ∨ request.lostGlobal = r
  | .reported _, _ => False

/-- What calls are given is lent to them from outside or was handed out and is still held, and every
local reference is given back. -/
structure Scoped (lent : List Ref) (events : List Event) : Prop where
  /-- A call looks only behind what is held. -/
  uses : ∀ before request reply after, events = before ++ .called request reply :: after →
    ∀ r ∈ request.uses, r = .null ∨ r ∈ lent ∨ r ∈ localsOut before - localsBack before ∨
      r ∈ globalsOut before
  /-- A call gives back only a local reference that is held. -/
  gives : ∀ before request reply after, events = before ++ .called request reply :: after →
    held request.lostLocal ≤ localsOut before - localsBack before
  localsKept : localsOut events = localsBack events
  globalsKept : globalsBack events = 0

/-- The references that come with an answer. -/
def Event.brought (e : Event) : List Ref := [e.newLocal, e.newGlobal].filter (!·.isNull)

/-- Every reference that comes with an answer is new. -/
structure Fresh (lent : List Ref) (events : List Event) : Prop where
  unlent : ∀ r ∈ events.flatMap (·.brought), r ∉ lent
  once : (events.flatMap (·.brought)).Nodup

/-! ## Counting references over events -/

section Counting

variable {f : Event → Ref} {events before after : List Event} {e : Event} {r : Ref}

/-- A reference is among those counted if an event has it. -/
theorem mem_sum_held :
    r ∈ (events.map fun e => held (f e)).sum ↔ r.isNull = false ∧ ∃ e ∈ events, f e = r := by
  -- along the trace; an event without a reference adds nothing
  induction events with
  | nil => simp
  | cons e events ih =>
    rw [List.map_cons, List.sum_cons, Multiset.mem_add, ih]
    cases hnull : (f e).isNull with
    | true =>
      have hother : r.isNull = false → f e ≠ r := by
        rintro hr rfl
        exact absurd (hnull.symm.trans hr) (by decide)
      simp only [held, hnull, if_true, Multiset.notMem_zero, false_or, List.mem_cons]
      constructor
      · rintro ⟨hr, e', hmem, heq⟩
        exact ⟨hr, e', .inr hmem, heq⟩
      · rintro ⟨hr, e', rfl | hmem, heq⟩
        · exact absurd heq (hother hr)
        · exact ⟨hr, e', hmem, heq⟩
    | false =>
      rw [held_of_not_null hnull, Multiset.mem_singleton]
      constructor
      · rintro (rfl | ⟨hr, e', hmem, heq⟩)
        · exact ⟨hnull, e, List.mem_cons_self .., rfl⟩
        · exact ⟨hr, e', List.mem_cons_of_mem _ hmem, heq⟩
      · rintro ⟨hr, e', hmem, heq⟩
        rcases List.mem_cons.mp hmem with rfl | hmem
        · exact .inl heq.symm
        · exact .inr ⟨hr, e', hmem, heq⟩

theorem mem_localsOut : r ∈ localsOut events ↔ r.isNull = false ∧ ∃ e ∈ events, e.newLocal = r :=
  mem_sum_held

theorem mem_localsBack : r ∈ localsBack events ↔ r.isNull = false ∧ ∃ e ∈ events, e.lostLocal = r :=
  mem_sum_held

theorem mem_globalsOut : r ∈ globalsOut events ↔ r.isNull = false ∧ ∃ e ∈ events, e.newGlobal = r :=
  mem_sum_held

theorem mem_globalsBack :
    r ∈ globalsBack events ↔ r.isNull = false ∧ ∃ e ∈ events, e.lostGlobal = r :=
  mem_sum_held

theorem localsOut_split :
    localsOut (before ++ e :: after) = localsOut before + (held e.newLocal + localsOut after) := by
  rw [localsOut, List.map_append, List.sum_append, List.map_cons, List.sum_cons]
  rfl

theorem localsBack_split : localsBack (before ++ e :: after) =
    localsBack before + (held e.lostLocal + localsBack after) := by
  rw [localsBack, List.map_append, List.sum_append, List.map_cons, List.sum_cons]
  rfl

/-- No call hands out a local and a durable reference. -/
theorem Event.newGlobal_of_newLocal (h : e.newLocal.isNull = false) : e.newGlobal = .null := by
  cases e with
  | reported fault => rfl
  | called request reply => cases request <;> first | rfl | exact absurd h nofun

/-- No call hands out a local reference and takes one back. -/
theorem Event.lostLocal_of_newLocal (h : e.newLocal.isNull = false) : e.lostLocal = .null := by
  cases e with
  | reported fault => rfl
  | called request reply => cases request <;> first | rfl | exact absurd h nofun

/-- Only one call gives a local reference back. -/
theorem Event.eq_of_lostLocal (hr : r.isNull = false) (h : e.lostLocal = r) :
    e = .called (.deleteLocalRef r) () := by
  subst h
  cases e with
  | reported fault => exact absurd hr nofun
  | called request reply => cases request <;> first | rfl | exact absurd hr nofun

end Counting

/-! ## From the ledger to single events -/

section Scopes

variable {lent : List Ref} {events : List Event}

/-- A ledger that starts with what is lent, and ends without locals. -/
theorem scoped_of_kept {strict : Prop} {ℓ ℓ' : Ledger} (h : (rules strict).Kept ℓ events ℓ')
    (hnothing : ℓ.locals = 0) (hstarts : ℓ.globals = lent) (hends : ℓ'.locals = 0)
    (hkeeps : globalsBack events = 0) : Scoped lent events := by
  -- what is held at any point is what was handed out and not given back
  have hlive : ∀ {before mid}, (rules strict).Kept ℓ before mid →
      mid.locals = localsOut before - localsBack before := by
    intro before mid hmid
    have hcounted := locals_add_localsBack hmid
    rw [hnothing, zero_add] at hcounted
    exact eq_tsub_of_add_eq hcounted
  refine ⟨?_, ?_, ?_, hkeeps⟩
  · rintro before request reply after rfl r hr
    obtain ⟨mid, hmid, htakes⟩ := h.taken
    have hshared := globals_add_globalsBack hmid
    rcases htakes.2.1 r hr with hnull | hlocal | hglobal
    · exact .inl hnull
    · exact .inr (.inr (.inl (hlive hmid ▸ hlocal)))
    · have hmem : r ∈ ℓ.globals + globalsOut before := by
        rw [← hshared]
        exact Multiset.mem_add.mpr (.inl hglobal)
      rcases Multiset.mem_add.mp hmem with hlent | hout
      · exact .inr (.inl (Multiset.mem_coe.mp (hstarts ▸ hlent)))
      · exact .inr (.inr (.inr hout))
  · rintro before request reply after rfl
    obtain ⟨mid, hmid, htakes⟩ := h.taken
    exact hlive hmid ▸ htakes.2.2.1
  · have hcounted := locals_add_localsBack h
    rw [hnothing, hends, zero_add, zero_add] at hcounted
    exact hcounted.symm

variable {before after : List Event} {e : Event} {r : Ref}

theorem Event.mem_brought : r ∈ e.brought ↔ r.isNull = false ∧ (e.newLocal = r ∨ e.newGlobal = r) := by
  rw [Event.brought, List.mem_filter, and_comm]
  refine and_congr (by simp) ?_
  rw [List.mem_pair, eq_comm, @eq_comm _ r e.newGlobal]

/-- What comes as a local reference was not lent, and comes with no other answer. -/
theorem Fresh.only (hfresh : Fresh lent (before ++ e :: after)) (hr : r.isNull = false)
    (hcame : e.newLocal = r) : r ∉ lent ∧ ∀ e' ∈ before ++ after, r ∉ e'.brought := by
  have hhere : r ∈ e.brought := Event.mem_brought.mpr ⟨hr, .inl hcame⟩
  have honce := hfresh.once
  rw [List.flatMap_append, List.flatMap_cons, List.nodup_append, List.nodup_append] at honce
  obtain ⟨_, ⟨_, _, hlater⟩, hearlier⟩ := honce
  refine ⟨hfresh.unlent r (List.mem_flatMap.mpr ⟨e, by simp, hhere⟩), fun e' he' hagain => ?_⟩
  rcases List.mem_append.mp he' with he' | he'
  · exact hearlier r (List.mem_flatMap.mpr ⟨e', he', hagain⟩) r (List.mem_append_left _ hhere) rfl
  · exact hlater r hhere r (List.mem_flatMap.mpr ⟨e', he', hagain⟩) rfl

theorem notMem_localsOut {events : List Event} (h : ∀ e ∈ events, r ∉ e.brought) :
    r ∉ localsOut events := by
  intro hmem
  obtain ⟨hr, e, he, hcame⟩ := mem_localsOut.mp hmem
  exact h e he (Event.mem_brought.mpr ⟨hr, .inl hcame⟩)

/-- A new local reference is handed out once, so it is given back once. -/
theorem Scoped.count_localsBack (hsc : Scoped lent (before ++ e :: after))
    (hfresh : Fresh lent (before ++ e :: after)) (hr : r.isNull = false) (hcame : e.newLocal = r) :
    (localsBack (before ++ e :: after)).count r = 1 := by
  obtain ⟨_, hother⟩ := hfresh.only hr hcame
  have hfirst : r ∉ localsOut before :=
    notMem_localsOut fun e' he' => hother e' (List.mem_append_left _ he')
  have hlast : r ∉ localsOut after :=
    notMem_localsOut fun e' he' => hother e' (List.mem_append_right _ he')
  rw [← hsc.localsKept, localsOut_split, hcame, held_of_not_null hr, Multiset.count_add,
    Multiset.count_add, Multiset.count_singleton_self, Multiset.count_eq_zero_of_notMem hfirst,
    Multiset.count_eq_zero_of_notMem hlast]

/-- What is given back was handed out before. -/
theorem Scoped.localsBack_le (hsc : Scoped lent (before ++ after)) :
    localsBack before ≤ localsOut before := by
  -- along the trace from its end, since what may be given back is told by what came before
  induction before using List.reverseRecOn generalizing after with
  | nil => exact le_refl _
  | append_singleton before e ih =>
    have hearlier : localsBack before ≤ localsOut before :=
      @ih (e :: after) (by simpa using hsc)
    rw [localsBack_split, localsOut_split]
    cases e with
    | reported fault => simpa [Event.newLocal, Event.lostLocal, localsBack, localsOut] using hearlier
    | called request reply =>
      have hgives := hsc.gives before request reply after (by simp)
      calc localsBack before + (held request.lostLocal + localsBack [])
          = localsBack before + held request.lostLocal := by simp [localsBack]
        _ ≤ localsBack before + (localsOut before - localsBack before) :=
          Multiset.add_le_add_left hgives
        _ = localsOut before := add_tsub_cancel_of_le hearlier
        _ ≤ localsOut before + (held (request.newLocal reply) + localsOut []) :=
          Multiset.le_add_right _ _

/-- A reference that is neither lent nor durable, and was given back as often as it came, is not given
to a call. -/
theorem Scoped.not_gets (hsc : Scoped lent (before ++ e :: after)) (hr : r.isNull = false)
    (hunlent : r ∉ lent) (hgone : (localsOut before).count r ≤ (localsBack before).count r)
    (hunshared : r ∉ globalsOut before) : ¬ e.Gets r := by
  -- given back as often as it was handed out, so none is left to pass on
  have hnothing : r ∉ localsOut before - localsBack before := by
    rw [← Multiset.count_eq_zero, Multiset.count_sub]
    omega
  intro hgets
  cases e with
  | reported fault => exact hgets
  | called request reply =>
    rcases hgets with hused | hlost | hlost
    · rcases hsc.uses before request reply after rfl r hused with hnull | hlent | hlive | hshared
      · exact absurd hr (hnull ▸ nofun)
      · exact hunlent hlent
      · exact hnothing hlive
      · exact hunshared hshared
    · have hgives := hsc.gives before request reply after rfl
      rw [hlost, held_of_not_null hr, Multiset.singleton_le] at hgives
      exact hnothing hgives
    · have hgiven : r ∈ globalsBack (before ++ .called request reply :: after) :=
        mem_globalsBack.mpr ⟨hr, .called request reply, by simp, hlost⟩
      rw [hsc.globalsKept] at hgiven
      exact absurd hgiven (Multiset.notMem_zero r)

/-- **Each local reference is given back once.** Where references are new, one that came with an answer
is given back by exactly one later call, and no call after that is given it. -/
theorem Scoped.given_back_once (hsc : Scoped lent (before ++ e :: after))
    (hfresh : Fresh lent (before ++ e :: after)) (hr : r.isNull = false) (hcame : e.newLocal = r) :
    ∃ between rest, after = between ++ .called (.deleteLocalRef r) () :: rest ∧
      (∀ e' ∈ before ++ e :: between, e'.lostLocal ≠ r) ∧ ∀ e' ∈ rest, ¬ e'.Gets r := by
  have hcounted := hsc.count_localsBack hfresh hr hcame
  obtain ⟨hunlent, hother⟩ := hfresh.only hr hcame
  have hunseen : r ∉ localsOut before :=
    notMem_localsOut fun e' he' => hother e' (List.mem_append_left _ he')
  -- nothing before the answer gives it back, nor does the call that brings it
  have hearly : r ∉ localsBack before := fun h => hunseen (Multiset.mem_of_le hsc.localsBack_le h)
  have hkeeps : e.lostLocal = .null := Event.lostLocal_of_newLocal (hcame ▸ hr)
  rw [localsBack_split, hkeeps, held_null, zero_add, Multiset.count_add,
    Multiset.count_eq_zero_of_notMem hearly, zero_add] at hcounted
  have hback : r ∈ localsBack after := Multiset.count_pos.mp (by omega)
  obtain ⟨_, d, hd, hgives⟩ := mem_localsBack.mp hback
  obtain ⟨between, rest, rfl⟩ := List.append_of_mem hd
  obtain rfl := Event.eq_of_lostLocal hr hgives
  rw [localsBack_split, hgives, held_of_not_null hr, Multiset.count_add, Multiset.count_add,
    Multiset.count_singleton_self] at hcounted
  have hnotBetween : r ∉ localsBack between := Multiset.count_eq_zero.mp (by omega)
  refine ⟨between, rest, rfl, ?_, ?_⟩
  · intro e' he' hagain
    rcases List.mem_append.mp he' with he' | he'
    · exact hearly (mem_localsBack.mpr ⟨hr, e', he', hagain⟩)
    · rcases List.mem_cons.mp he' with rfl | he'
      · exact absurd hr (hagain.symm.trans hkeeps ▸ nofun)
      · exact hnotBetween (mem_localsBack.mpr ⟨hr, e', he', hagain⟩)
  · intro e' he'
    obtain ⟨m, m', rfl⟩ := List.append_of_mem he'
    -- up to this call, it came once and was given back once
    let past := before ++ e :: (between ++ .called (.deleteLocalRef r) () :: m)
    have hsplit : before ++ e :: (between ++ .called (.deleteLocalRef r) () :: (m ++ e' :: m')) =
        past ++ e' :: m' := by simp [past]
    have hall := hsc.count_localsBack hfresh hr hcame
    rw [← hsc.localsKept, hsplit, localsOut_split, Multiset.count_add] at hall
    have hgone : 1 ≤ (localsBack past).count r :=
      Multiset.count_pos.mpr (mem_localsBack.mpr ⟨hr, _, by simp [past], hgives⟩)
    rw [hsplit] at hsc
    refine hsc.not_gets hr hunlent (by omega) fun hshared => ?_
    obtain ⟨_, d, hmem, hmade⟩ := mem_globalsOut.mp hshared
    have hbrought : r ∈ d.brought := Event.mem_brought.mpr ⟨hr, .inr hmade⟩
    rcases List.mem_append.mp hmem with hmem | hmem
    · exact hother d (List.mem_append_left _ hmem) hbrought
    · rcases List.mem_cons.mp hmem with rfl | hmem
      · rw [Event.newGlobal_of_newLocal (hcame ▸ hr)] at hmade
        exact absurd hr (hmade ▸ nofun)
      · refine hother d (List.mem_append_right _ ?_) hbrought
        have hlonger : between ++ .called (.deleteLocalRef r) () :: (m ++ e' :: m') =
            (between ++ .called (.deleteLocalRef r) () :: m) ++ e' :: m' := by simp
        rw [hlonger]
        exact List.mem_append_left _ hmem

end Scopes

end GridBridge.Seam.Script
