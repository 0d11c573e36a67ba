import GridBridge.Proofs.Relay.Views

/-!
# Relay traffic: every order in which threads can touch the relay

A **`Traffic`** is a relay with the signals that are on their way and a history of what happened. The
threads of issuers, completing workers and loops interleave, so whatever one of them does in one go
is one `Step`, and a run is any sequence of steps:

* `issue` registers a call, `fail` takes back a call whose issue ended in an error. The history keeps
  the calls that were issued and not taken back;
* a signal is `take`, `fill`, `push` and `unpark`, in four steps with anything in between. A signal
  for a number that is not in the registry, be it a duplicate or never issued, ends with `ignore`;
* `deliver` takes one number off a loop's queue and runs the callback that it claims. What the
  callback does is a matter of further steps;
* `openLoop` and `dropLoop` may come at any time, also between the steps of a signal.

The steps are the operations of `Relay.State` themselves. `steps_signal` says that the four steps of
a signal in a row are `Relay.signal`.
-/

namespace GridBridge.Relay

open Protocol

variable {κ : Type}

/-! ## State -/

/-- How far a signal has come. -/
inductive Stage where
  /-- The call was taken out of the registry. -/
  | taken
  /-- The slot was filled. -/
  | filled
  /-- The number was pushed to the loop. -/
  | pushed
  deriving DecidableEq, Repr

/-- What the slot of a call holds while its signal is at a stage. -/
def Stage.slot (payload : Completion) : Stage → Option Completion
  | .taken => none
  | .filled | .pushed => some payload

/-- A signal on its way, from taking its call out of the registry until it has woken the loop. -/
structure Courier where
  id : CallId
  loop : LoopId
  payload : Completion
  stage : Stage
  deriving DecidableEq, Repr

/-- A call that was issued. -/
structure Issued (κ : Type) where
  id : CallId
  loop : LoopId
  callback : κ
  deriving DecidableEq, Repr

/-- A callback that ran, with the loop that ran it and the payload it was given. -/
structure Run (κ : Type) where
  id : CallId
  loop : LoopId
  callback : κ
  payload : Completion
  deriving DecidableEq, Repr

structure Traffic (κ : Type) where
  relay : Relay κ := {}
  underway : List Courier := []
  /-- Calls ever begun, those that failed at once included. -/
  begun : Nat := 0
  /-- Calls begun and not taken back. -/
  issued : List (Issued κ) := []
  /-- Numbers taken out of the registry by a signal, with its payload, oldest first. -/
  taken : List (CallId × Completion) := []
  /-- Numbers of the signals that have done all four steps. -/
  settled : List CallId := []
  /-- Callbacks that ran, oldest first. -/
  runs : List (Run κ) := []

namespace Traffic

/-- The payload of the first signal that took a number out of the registry. -/
def firstTaken? (t : Traffic κ) (id : CallId) : Option Completion := t.taken.lookup id

/-- Goes on with one signal at its next stage. -/
def advance (t : Traffic κ) (c : Courier) (stage : Stage) : List Courier :=
  { c with stage } :: t.underway.erase c

end Traffic

/-! ## Steps -/

/-- One step of one thread. -/
inductive Step : Traffic κ → Traffic κ → Prop where
  | openLoop (t : Traffic κ) : Step t { t with relay := t.relay.openLoop.2 }
  | dropLoop (t : Traffic κ) (l : LoopId) : Step t { t with relay := t.relay.dropLoop l }
  | issue (t : Traffic κ) (l : LoopId) (callback : κ) (halive : t.relay.Alive l) :
      Step t { t with
        relay := (t.relay.begin l callback).2
        begun := t.begun + 1
        issued := ⟨(t.relay.begin l callback).1, l, callback⟩ :: t.issued }
  | fail (t : Traffic κ) (call : Issued κ) (hmem : call ∈ t.issued) :
      Step t { t with
        relay := t.relay.withdraw call.loop call.id
        issued := t.issued.filter (·.id != call.id) }
  | ignore (t : Traffic κ) (id : CallId) (hunknown : (t.relay.take id).1 = none) :
      Step t { t with relay := (t.relay.take id).2 }
  | take (t : Traffic κ) (id : CallId) (payload : Completion) (l : LoopId)
      (hknown : (t.relay.take id).1 = some l) :
      Step t { t with
        relay := (t.relay.take id).2
        taken := t.taken ++ [(id, payload)]
        underway := ⟨id, l, payload, .taken⟩ :: t.underway }
  | fill (t : Traffic κ) (c : Courier) (hmem : c ∈ t.underway) (hstage : c.stage = .taken) :
      Step t { t with
        relay := t.relay.modifyLoop c.loop (·.fill c.id c.payload)
        underway := t.advance c .filled }
  | push (t : Traffic κ) (c : Courier) (hmem : c ∈ t.underway) (hstage : c.stage = .filled) :
      Step t { t with
        relay := t.relay.modifyLoop c.loop (·.push c.id)
        underway := t.advance c .pushed }
  | unpark (t : Traffic κ) (c : Courier) (hmem : c ∈ t.underway) (hstage : c.stage = .pushed) :
      Step t { t with
        relay := t.relay.modifyLoop c.loop (·.unpark)
        underway := t.underway.erase c
        settled := c.id :: t.settled }
  | deliver (t : Traffic κ) (l : LoopId) (id : CallId) (claimed : Option (κ × Completion))
      (after : Relay κ) (hnext : t.relay.claimNext? l = some (id, claimed, after)) :
      Step t { t with
        relay := after
        runs := t.runs ++ (claimed.map fun (callback, payload) =>
          (⟨id, l, callback, payload⟩ : Run κ)).toList }

/-- States that some order of steps leads to, from a relay that nobody has used. -/
inductive Reachable : Traffic κ → Prop where
  | fresh : Reachable {}
  | step {t t' : Traffic κ} (hreach : Reachable t) (hnext : Step t t') : Reachable t'

/-- Steps in a row. -/
inductive Steps : Traffic κ → Traffic κ → Prop where
  | refl (t : Traffic κ) : Steps t t
  | head {t t' t'' : Traffic κ} (hnext : Step t t') (hrest : Steps t' t'') : Steps t t''

theorem Reachable.steps {t t' : Traffic κ} (hreach : Reachable t) (hsteps : Steps t t') :
    Reachable t' := by
  induction hsteps with
  | refl _ => exact hreach
  | head hnext _ ih => exact ih (hreach.step hnext)

/-- No step forgets that a call was begun. -/
theorem Step.begun_le {t t' : Traffic κ} (hnext : Step t t') : t.begun ≤ t'.begun := by
  cases hnext <;> simp

/-- **A signal in one go.** The four steps of a signal in a row are `Relay.signal`. -/
theorem steps_signal (t : Traffic κ) {id : CallId} {payload : Completion} {l : LoopId}
    (hknown : (t.relay.take id).1 = some l) :
    ∃ t', Steps t t' ∧ t'.relay = t.relay.signal id payload ∧ t'.settled = id :: t.settled := by
  let c : Courier := ⟨id, l, payload, .taken⟩
  refine ⟨_, .head (.take t id payload l hknown) (.head (.fill _ c (List.mem_cons_self ..) rfl)
    (.head (.push _ { c with stage := .filled } (List.mem_cons_self ..) rfl)
      (.head (.unpark _ { c with stage := .pushed } (List.mem_cons_self ..) rfl) (.refl _)))),
    (signal_of_known hknown payload).symm, rfl⟩

end GridBridge.Relay
