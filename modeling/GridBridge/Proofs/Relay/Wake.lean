import GridBridge.Relay.State

/-!
# Relay wake-ups: a loop that waits while anyone may send

A **`Scene`** is one loop with its owner and the senders around it. The owner takes turns: a turn
drains the ready queue, and if that ran no callback while calls are pending it parks, drains again
when it is woken or its deadline has passed, and so on. A sender pushes a number and then leaves the
wake token, in two steps. `Move` is one step of the owner or of anyone else, so a run is any
interleaving:

* a sender may push any number, be it pending, withdrawn or never issued, and any number of senders
  may stand between their two steps;
* a callback may issue, withdraw and take turns of its own, which `turns` keeps innermost first;
* a run starts with any queue, any token and any senders on their way.

`Awake` is the invariant. A drain ends with the queue seen empty, so whatever is ready after it was
pushed since, and its sender is still on its way or has left the token; only a park takes the token,
and a drain follows it.
-/

namespace GridBridge.Relay

open Protocol

variable {κ : Type}

/-! ## State -/

/-- What a drain comes after. -/
inductive Round where
  /-- The turn has just begun. -/
  | opening
  | woken
  | timedOut
  deriving DecidableEq, Repr

/-- Whether a turn returns after a drain that ran so many callbacks. -/
def Round.Ends (round : Round) (count pending : Nat) : Prop :=
  0 < count ∨ pending = 0 ∨ round = .timedOut

instance (round : Round) (count pending : Nat) : Decidable (round.Ends count pending) :=
  inferInstanceAs (Decidable (_ ∨ _ ∨ _))

/-- Where a turn stands. -/
inductive Phase where
  | draining (round : Round) (count : Nat)
  /-- A callback runs. -/
  | reacting (round : Round) (count : Nat)
  /-- The queue was seen empty. -/
  | drained (round : Round) (count : Nat)
  | parked
  deriving DecidableEq, Repr

namespace Phase

/-- A callback runs. -/
def Reacts (phase : Phase) : Prop := ∃ round count, phase = .reacting round count

/-- The drain that a turn is in or has just done. -/
def round? : Phase → Option Round
  | .draining round _ | .reacting round _ | .drained round _ => some round
  | .parked => none

/-- The queue was seen empty, and the token is still to be taken. -/
def Idle : Phase → Prop
  | .drained .. | .parked => True
  | .draining .. | .reacting .. => False

end Phase

/-- One turn of the owner. -/
structure Turn where
  /-- Milliseconds that the turn may wait; without any it may wait for ever. -/
  timeout : Option Nat
  /-- When the turn began. -/
  since : Nat
  /-- Set when the turn first parks. -/
  deadline : Option Nat := none
  phase : Phase := .draining .opening 0
  deriving DecidableEq, Repr

/-- A turn that has returned. -/
structure Return where
  timeout : Option Nat
  since : Nat
  /-- When it returned. -/
  clock : Nat
  /-- What its last drain came after, and how many callbacks that drain ran. -/
  round : Round
  count : Nat
  /-- Calls pending at the return. -/
  pending : Nat
  deriving DecidableEq, Repr

structure Scene (κ : Type) where
  loop : EventLoop κ
  /-- Numbers that were pushed by senders that have not left the token yet. -/
  sending : List CallId := []
  clock : Nat := 0
  /-- The turns under way, innermost first. -/
  turns : List Turn := []
  /-- The turns that have returned, latest first. -/
  returned : List Return := []

namespace Scene

/-- The owner runs code of its own: it is in no turn, or in a callback. -/
def Free (t : Scene κ) : Prop := ∀ turn ∈ t.turns.head?, turn.phase.Reacts

/-- The owner waits for a token that is not there. -/
def Blocked (t : Scene κ) : Prop := t.loop.token = false ∧ ∃ turn ∈ t.turns.head?, turn.phase = .parked

/-- The innermost turn goes on. -/
def goOn (t : Scene κ) (turn : Turn) (rest : List Turn) (phase : Phase) : Scene κ :=
  { t with turns := { turn with phase } :: rest }

end Scene

/-! ## Moves -/

/-- One step of one thread. -/
inductive Move : Scene κ → Scene κ → Prop where
  | tick (t : Scene κ) : Move t { t with clock := t.clock + 1 }
  | fill (t : Scene κ) (id : CallId) (payload : Completion) :
      Move t { t with loop := t.loop.fill id payload }
  | push (t : Scene κ) (id : CallId) :
      Move t { t with loop := t.loop.push id, sending := id :: t.sending }
  | unpark (t : Scene κ) (id : CallId) (hmem : id ∈ t.sending) :
      Move t { t with loop := t.loop.unpark, sending := t.sending.erase id }
  | register (t : Scene κ) (id : CallId) (callback : κ) (hfree : t.Free) :
      Move t { t with loop := t.loop.register id callback }
  | withdraw (t : Scene κ) (id : CallId) (hfree : t.Free) :
      Move t { t with loop := t.loop.withdraw id }
  | enter (t : Scene κ) (timeout : Option Nat) (hfree : t.Free) :
      Move t { t with turns := { timeout, since := t.clock } :: t.turns }
  | deliver (t : Scene κ) (turn : Turn) (rest : List Turn) (round : Round) (count : Nat)
      (id : CallId) (popped : EventLoop κ) (callback : κ) (payload : Completion)
      (htop : t.turns = turn :: rest) (hphase : turn.phase = .draining round count)
      (hnext : t.loop.pop? = some (id, popped))
      (hclaimed : (popped.claim id).1 = some (callback, payload)) :
      Move t { t.goOn turn rest (.reacting round (count + 1)) with loop := (popped.claim id).2 }
  | skip (t : Scene κ) (turn : Turn) (rest : List Turn) (round : Round) (count : Nat)
      (id : CallId) (popped : EventLoop κ)
      (htop : t.turns = turn :: rest) (hphase : turn.phase = .draining round count)
      (hnext : t.loop.pop? = some (id, popped)) (hclaimed : (popped.claim id).1 = none) :
      Move t { t with loop := (popped.claim id).2 }
  | resume (t : Scene κ) (turn : Turn) (rest : List Turn) (round : Round) (count : Nat)
      (htop : t.turns = turn :: rest) (hphase : turn.phase = .reacting round count) :
      Move t (t.goOn turn rest (.draining round count))
  | empty (t : Scene κ) (turn : Turn) (rest : List Turn) (round : Round) (count : Nat)
      (htop : t.turns = turn :: rest) (hphase : turn.phase = .draining round count)
      (hnext : t.loop.pop? = none) :
      Move t (t.goOn turn rest (.drained round count))
  | ret (t : Scene κ) (turn : Turn) (rest : List Turn) (round : Round) (count : Nat)
      (htop : t.turns = turn :: rest) (hphase : turn.phase = .drained round count)
      (hends : round.Ends count t.loop.pending) :
      Move t { t with
        turns := rest
        returned := {
          timeout := turn.timeout, since := turn.since, clock := t.clock, round, count
          pending := t.loop.pending } :: t.returned }
  | park (t : Scene κ) (turn : Turn) (rest : List Turn) (round : Round) (count : Nat)
      (htop : t.turns = turn :: rest) (hphase : turn.phase = .drained round count)
      (hwaits : ¬ round.Ends count t.loop.pending) :
      Move t (t.goOn { turn with
        deadline := turn.deadline.or (turn.timeout.map (t.clock + ·)) } rest .parked)
  | wake (t : Scene κ) (turn : Turn) (rest : List Turn)
      (htop : t.turns = turn :: rest) (hphase : turn.phase = .parked) (htoken : t.loop.token = true) :
      Move t { t.goOn turn rest (.draining .woken 0) with loop := t.loop.takeToken }
  | timeOut (t : Scene κ) (turn : Turn) (rest : List Turn) (deadline : Nat)
      (htop : t.turns = turn :: rest) (hphase : turn.phase = .parked) (htoken : t.loop.token = false)
      (hset : turn.deadline = some deadline) (hpassed : deadline ≤ t.clock) :
      Move t (t.goOn turn rest (.draining .timedOut 0))

/-- Moves in a row. -/
inductive Moves : Scene κ → Scene κ → Prop where
  | refl (t : Scene κ) : Moves t t
  | head {t t' t'' : Scene κ} (hnext : Move t t') (hrest : Moves t' t'') : Moves t t''

/-- Scenes that some interleaving leads to, from any loop and senders and with the owner in no
turn. -/
inductive Scene.Reachable : Scene κ → Prop where
  | start (loop : EventLoop κ) (sending : List CallId) (clock : Nat) :
      Reachable { loop, sending, clock }
  | step {t t' : Scene κ} (hreach : Reachable t) (hnext : Move t t') : Reachable t'

/-! ## Invariant -/

/-- The waiting of a turn so far is within its timeout, and it has timed out only after it. -/
structure Turn.Patient (turn : Turn) (clock : Nat) : Prop where
  since : turn.since ≤ clock
  deadline : ∀ d, turn.deadline = some d → ∃ ms, turn.timeout = some ms ∧ turn.since + ms ≤ d
  timedOut : turn.phase.round? = some .timedOut →
    ∃ ms, turn.timeout = some ms ∧ turn.since + ms ≤ clock

/-- A turn that ran no callback at last had nothing to wait for, or has waited its time. -/
def Return.Justified (r : Return) : Prop :=
  r.count = 0 → r.pending = 0 ∨
    r.round = .timedOut ∧ ∃ ms, r.timeout = some ms ∧ r.since + ms ≤ r.clock

structure Awake (t : Scene κ) : Prop where
  /-- Whatever is ready after a drain was pushed since. -/
  idle : ∀ turn ∈ t.turns.head?, turn.phase.Idle → t.loop.ready ≠ [] →
    t.loop.token = true ∨ t.sending ≠ []
  /-- A turn within another one was taken by a callback of that one. -/
  outer : ∀ turn ∈ t.turns.tail, turn.phase.Reacts
  patient : ∀ turn ∈ t.turns, turn.Patient t.clock
  justified : ∀ r ∈ t.returned, r.Justified

namespace Turn.Patient

variable {turn : Turn} {clock : Nat}

theorem later (h : turn.Patient clock) : turn.Patient (clock + 1) where
  since := by
    have := h.since
    omega
  deadline := h.deadline
  timedOut := by
    intro hround
    obtain ⟨ms, htimeout, hwaited⟩ := h.timedOut hround
    exact ⟨ms, htimeout, by omega⟩

/-- Another phase of the same round. -/
theorem goOn (h : turn.Patient clock) (phase : Phase) (hsame : phase.round? = turn.phase.round?) :
    Turn.Patient { turn with phase } clock :=
  ⟨h.since, h.deadline, fun hround => h.timedOut (hsame.symm.trans hround)⟩

end Turn.Patient

theorem Phase.Reacts.not_idle {phase : Phase} (h : phase.Reacts) : ¬ phase.Idle := by
  obtain ⟨round, count, rfl⟩ := h
  exact not_false

theorem pop?_eq_none {loop : EventLoop κ} (h : loop.pop? = none) : loop.ready = [] := by
  unfold EventLoop.pop? at h
  split at h
  · assumption
  · cases h

namespace Awake

variable {t : Scene κ} {turn : Turn} {rest : List Turn}

theorem start (loop : EventLoop κ) (sending : List CallId) (clock : Nat) :
    Awake ({ loop, sending, clock } : Scene κ) := by
  constructor <;> simp

theorem top_patient (h : Awake t) (htop : t.turns = turn :: rest) : turn.Patient t.clock := by
  apply h.patient
  rw [htop]
  exact List.mem_cons_self ..

/-- The innermost turn has come to another phase. What that asks of the token is to be shown. -/
theorem replace (h : Awake t) (htop : t.turns = turn :: rest) {next : Turn} {loop : EventLoop κ}
    (hpatient : next.Patient t.clock)
    (hidle : next.phase.Idle → loop.ready ≠ [] → loop.token = true ∨ t.sending ≠ []) :
    Awake { t with loop, turns := next :: rest } where
  idle := by
    intro other hmem
    obtain rfl : next = other := by simpa using hmem
    exact hidle
  outer := by
    have houter := h.outer
    rwa [htop] at houter
  -- the turns below are as they were
  patient := by
    intro other hmem
    cases hmem with
    | head => exact hpatient
    | tail _ hmem =>
      apply h.patient
      rw [htop]
      exact List.mem_cons_of_mem _ hmem
  justified := h.justified

/-- A turn in a callback, or none at all, asks nothing of the token. -/
theorem of_free (h : Awake t) (hfree : t.Free) (loop : EventLoop κ) : Awake { t with loop } where
  idle := fun turn hmem hidle => absurd hidle (hfree turn hmem).not_idle
  outer := h.outer
  patient := h.patient
  justified := h.justified

/-- The innermost turn returns to the callback that took it. -/
theorem ret (h : Awake t) (htop : t.turns = turn :: rest) {r : Return} (hjustified : r.Justified) :
    Awake { t with turns := rest, returned := r :: t.returned } where
  -- the turn below is in the middle of a callback, so it is not idle
  idle := by
    intro other hmem hidle
    have hreacts := h.outer other
    rw [htop, List.tail_cons] at hreacts
    exact absurd hidle (hreacts (List.mem_of_head? hmem)).not_idle
  outer := by
    intro other hmem
    apply h.outer
    rw [htop, List.tail_cons]
    exact List.mem_of_mem_tail hmem
  patient := by
    intro other hmem
    apply h.patient
    rw [htop]
    exact List.mem_cons_of_mem _ hmem
  justified := by
    intro other hmem
    cases hmem with
    | head => exact hjustified
    | tail _ hmem => exact h.justified other hmem

end Awake

/-- One step keeps the invariant. -/
theorem awake_move {t t' : Scene κ} (h : Awake t) (hnext : Move t t') : Awake t' := by
  cases hnext with
  | tick => exact ⟨h.idle, h.outer, fun turn hmem => (h.patient turn hmem).later, h.justified⟩
  | fill id payload => exact ⟨h.idle, h.outer, h.patient, h.justified⟩
  | push id =>
    -- whatever is ready now, this sender is still on its way
    exact ⟨fun _ _ _ _ => .inr (List.cons_ne_nil id t.sending), h.outer, h.patient, h.justified⟩
  | unpark id hmem => exact ⟨fun _ _ _ _ => .inl rfl, h.outer, h.patient, h.justified⟩
  | register id callback hfree => exact h.of_free hfree (t.loop.register id callback)
  | withdraw id hfree => exact h.of_free hfree (t.loop.withdraw id)
  | enter timeout hfree =>
    refine ⟨?_, ?_, ?_, h.justified⟩
    · intro turn hmem hidle
      obtain rfl : { timeout, since := t.clock } = turn := by simpa using hmem
      exact absurd hidle not_false
    · intro turn hmem
      cases hturns : t.turns with
      | nil => simp [hturns] at hmem
      | cons first others =>
        rw [List.tail_cons, hturns] at hmem
        obtain rfl | hmem := List.mem_cons.mp hmem
        · exact hfree turn (by simp [hturns])
        · exact h.outer turn (by simpa [hturns] using hmem)
    · intro turn hmem
      cases hmem with
      | head => exact ⟨Nat.le_refl _, nofun, nofun⟩
      | tail _ hmem => exact h.patient turn hmem
  | deliver turn rest round count id popped callback payload htop hphase hnext hclaimed =>
    have hpatient := (h.top_patient htop).goOn (.reacting round (count + 1)) (by rw [hphase]; rfl)
    exact h.replace htop hpatient fun hidle => absurd hidle not_false
  | skip turn rest round count id popped htop hphase hnext hclaimed =>
    refine ⟨?_, h.outer, h.patient, h.justified⟩
    intro other hmem hidle
    obtain rfl : turn = other := by simpa [htop] using hmem
    rw [hphase] at hidle
    exact absurd hidle not_false
  | resume turn rest round count htop hphase =>
    have hpatient := (h.top_patient htop).goOn (.draining round count) (by rw [hphase]; rfl)
    exact h.replace htop hpatient fun hidle => absurd hidle not_false
  | empty turn rest round count htop hphase hnext =>
    have hpatient := (h.top_patient htop).goOn (.drained round count) (by rw [hphase]; rfl)
    exact h.replace htop hpatient fun _ hnonempty => absurd (pop?_eq_none hnext) hnonempty
  | ret turn rest round count htop hphase hends =>
    refine h.ret htop ?_
    intro hnone
    obtain hsome | hempty | htimedOut := hends
    · exact absurd hnone (Nat.ne_of_gt hsome)
    · exact .inl hempty
    · subst htimedOut
      exact .inr ⟨rfl, (h.top_patient htop).timedOut (by rw [hphase]; rfl)⟩
  | park turn rest round count htop hphase hwaits =>
    have hpatient := h.top_patient htop
    refine h.replace htop ⟨hpatient.since, ?_, nofun⟩ ?_
    · intro d hset
      cases hdeadline : turn.deadline with
      | some earlier =>
        rw [hdeadline, Option.some_or] at hset
        exact hpatient.deadline d (hdeadline.trans hset)
      | none =>
        rw [hdeadline, Option.none_or] at hset
        obtain ⟨ms, htimeout, rfl⟩ := Option.map_eq_some_iff.mp hset
        exact ⟨ms, htimeout, Nat.add_le_add_right hpatient.since ms⟩
    · intro _
      exact h.idle turn (by simp [htop]) (by simp [hphase, Phase.Idle])
  | wake turn rest htop hphase htoken =>
    have hpatient := h.top_patient htop
    exact h.replace htop ⟨hpatient.since, hpatient.deadline, nofun⟩ fun hidle => absurd hidle not_false
  | timeOut turn rest deadline htop hphase htoken hset hpassed =>
    have hpatient := h.top_patient htop
    obtain ⟨ms, htimeout, hwaited⟩ := hpatient.deadline deadline hset
    have htimedOut := Nat.le_trans hwaited hpassed
    exact h.replace htop ⟨hpatient.since, hpatient.deadline, fun _ => ⟨ms, htimeout, htimedOut⟩⟩
      fun hidle => absurd hidle not_false

theorem awake_of_reachable {t : Scene κ} (hreach : t.Reachable) : Awake t := by
  induction hreach with
  | start loop sending clock => exact .start loop sending clock
  | step _ hnext ih => exact awake_move ih hnext

/-! ## No lost wake-up -/

/-- Whatever the interleaving: the owner is never left blocked with something ready and every sender
done. A turn that may wait for ever returns without having run a callback only when nothing is
pending, and one with a timeout only then or when its time was up and a last drain ran nothing. -/
theorem no_lost_wake_up {t : Scene κ} (hreach : t.Reachable) :
    ¬ (t.Blocked ∧ t.loop.ready ≠ [] ∧ t.sending = []) ∧
      ∀ r ∈ t.returned, r.count = 0 →
        (r.timeout = none → r.pending = 0) ∧
        ∀ ms, r.timeout = some ms →
          r.pending = 0 ∨ r.round = .timedOut ∧ r.since + ms ≤ r.clock := by
  have hawake := awake_of_reachable hreach
  refine ⟨?_, ?_⟩
  -- a parked turn with something ready has a token left or a sender on its way
  · intro hstranded
    obtain ⟨⟨htoken, turn, hmem, hparked⟩, hready, hsent⟩ := hstranded
    cases hawake.idle turn hmem (by simp [hparked, Phase.Idle]) hready with
    | inl hleft => exact Bool.false_ne_true (htoken.symm.trans hleft)
    | inr hunderway => exact hunderway hsent
  · intro r hmem hnone
    obtain hempty | ⟨htimedOut, ms, htimeout, hwaited⟩ := hawake.justified r hmem hnone
    · exact ⟨fun _ => hempty, fun _ _ => .inl hempty⟩
    · refine ⟨fun hforever => ?_, fun ms' htimeout' => .inr ⟨htimedOut, ?_⟩⟩
      · rw [hforever] at htimeout
        cases htimeout
      · rw [htimeout] at htimeout'
        cases htimeout'
        exact hwaited

end GridBridge.Relay
