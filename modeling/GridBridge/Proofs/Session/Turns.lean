import GridBridge.Proofs.Session.Signals

/-!
# Turns of a session: `runOnce` is one of the interleavings

The event loops of a session take turns while its workers run in between. What workers and reactions do to
the relay are signals and deeds (`Hears`, `did_react`), so to a loop it is no more than `Disturbed` allows
beside its turns. A drain ends with the queue seen empty, since `drainLimit` counts every number that can
become ready in it, and so each `runOnce` is a sequence of `Move`s. What holds of all interleavings holds of
a session.

A `runOnce` that would wait for ever is one that is blocked. That it cannot run out of wakes before is
counted: each wake needs the token, and a token that was not there comes from a task that a worker ran
(`wakesLeft`).
-/

namespace GridBridge.Session

open Protocol Seam Bridge Managed Relay

variable {own : Bool} {l : LoopId} {n : Nat} {s s' : Session}

/-! ## Drains -/

/-- The loop of the scene is loop `l` of the session. -/
structure Stages (t : Scene Reaction) (l : LoopId) (s : Session) : Prop where
  loop : s.relay.loop? l = some t.loop
  keyed : Keyed s.relay

variable {t : Scene Reaction} {turn : Turn} {rest : List Turn} {round : Round} {before count : Nat}

/-- What happens beside the turns is made of moves. -/
theorem Stages.disturbed (h : Stages t l s) (hd : Disturbed Reaction.following own l n s.relay s'.relay)
    (hfree : own = true → t.Free) :
    ∃ loop, Moves t { t with loop } ∧ Stages { t with loop } l s' := by
  obtain ⟨loop, hfound, htampered⟩ := hd.loop t.loop h.loop
  exact ⟨loop, htampered.moves rfl hfree, hfound, hd.keyed h.keyed⟩

/-- What one delivery does: nothing if no number is ready, else it takes one and runs its callback. -/
theorem deliverNext_cases {outcome : Option Bool}
    (hran : (deliverNext relayAccess react l).run.run s = (.ok outcome, s')) :
    (outcome = none ∧ s' = s ∧ s.relay.claimNext? l = none) ∨
      ∃ id claimed after, s.relay.claimNext? l = some (id, claimed, after) ∧
        match claimed with
        | some (reaction, payload) => outcome = some true ∧
          (react reaction payload).run.run { s with relay := after } = (.ok (), s')
        | none => outcome = some false ∧ s' = { s with relay := after } := by
  unfold deliverNext at hran
  obtain ⟨relay, s₁, hread, hran⟩ := run_bind_eq_ok hran
  cases hread
  -- the relay is read once and written once, before the callback runs
  cases hnext : s.relay.claimNext? l with
  | none =>
    rw [hnext] at hran
    cases hran
    exact .inl ⟨rfl, rfl, rfl⟩
  | some found =>
    obtain ⟨id, claimed, after⟩ := found
    rw [hnext] at hran
    obtain ⟨_, s₂, hwrote, hran⟩ := run_bind_eq_ok hran
    cases hwrote
    refine .inr ⟨id, claimed, after, rfl, ?_⟩
    cases claimed with
    | none =>
      cases hran
      exact ⟨rfl, rfl⟩
    | some called =>
      obtain ⟨_, s₃, hreacted, hran⟩ := run_bind_eq_ok hran
      cases hran
      exact ⟨rfl, hreacted⟩

/-- A callback is the owner's own code. When it is done, the drain goes on. -/
theorem moves_react {reaction : Reaction} {payload : Completion}
    (hreacted : (react reaction payload).run.run s = (.ok (), s')) (h : Stages t l s)
    (htop : t.turns = turn :: rest) (hphase : turn.phase = .reacting round count) :
    ∃ loop, Moves t { t.goOn turn rest (.draining round count) with loop } ∧
      Stages { t.goOn turn rest (.draining round count) with loop } l s' ∧
      drainLimit Reaction.following s'.relay ≤
        drainLimit Reaction.following s.relay + reaction.following := by
  have hdisturbed := (did_react reaction payload s).of_run hreacted |>.disturbed (l := l)
  have hfree : t.Free := by
    intro other hmem
    obtain rfl : turn = other := by simpa [htop] using hmem
    exact ⟨round, count, hphase⟩
  obtain ⟨loop, hbeside, hstages⟩ := h.disturbed hdisturbed fun _ => hfree
  have hresumes := Move.resume { t with loop } turn rest round count htop hphase
  exact ⟨loop, hbeside.trans (.head hresumes (.refl _)), ⟨hstages.loop, hstages.keyed⟩,
    hdisturbed.limit h.keyed⟩

/-- A drain runs until the queue is seen empty. -/
theorem moves_drainWithin {limit : Nat}
    (hran : (drainWithin relayAccess react l limit).run.run s = (.ok count, s'))
    (h : Stages t l s) (henough : drainLimit Reaction.following s.relay ≤ limit)
    (htop : t.turns = turn :: rest) (hphase : turn.phase = .draining round before) :
    ∃ t', Moves t t' ∧ Stages t' l s' ∧
      ∃ loop, t' = { t.goOn turn rest (.drained round (before + count)) with loop } := by
  induction limit generalizing s t turn before count with
  | zero =>
    -- nothing is left to take, so the queue is seen empty
    cases hran
    have hnothing : t.loop.ready.length ≤ 0 := Nat.le_trans (ready_le_drainLimit _ h.loop) henough
    have hempty : t.loop.pop? = none := by
      unfold EventLoop.pop?
      rw [List.length_eq_zero_iff.mp (Nat.le_zero.mp hnothing)]
    exact ⟨_, .head (.empty t turn rest round before htop hphase hempty) (.refl _),
      ⟨h.loop, h.keyed⟩, t.loop, rfl⟩
  | succ limit ih =>
    unfold drainWithin at hran
    obtain ⟨outcome, s₁, hdelivered, hlater⟩ := run_bind_eq_ok hran
    obtain ⟨rfl, rfl, hnext⟩ | ⟨id, claimed, after, hnext, hdid⟩ := deliverNext_cases hdelivered
    · cases hlater
      have hempty := pop?_of_claimNext?_eq_none h.loop hnext
      exact ⟨_, .head (.empty t turn rest round before htop hphase hempty) (.refl _),
        ⟨h.loop, h.keyed⟩, t.loop, rfl⟩
    · obtain ⟨popped, hpop, hclaims, hfound, hkeyed, hfewer⟩ :=
        claimNext?_spec Reaction.following h.keyed h.loop hnext
      cases claimed with
      | none =>
        obtain ⟨rfl, rfl⟩ := hdid
        obtain ⟨more, s₂, hdrained, hlast⟩ := run_bind_eq_ok hlater
        cases hlast
        -- nothing waits under the number
        have hskipped := Move.skip t turn rest round before id popped htop hphase hpop hclaims
        have hstages : Stages { t with loop := (popped.claim id).2 } l { s with relay := after } :=
          ⟨hfound, hkeyed⟩
        have hfits : drainLimit Reaction.following after ≤ limit := by omega
        obtain ⟨t', hmoves, hstages, loop, rfl⟩ := ih hdrained hstages hfits htop hphase
        exact ⟨_, .head hskipped hmoves, hstages, loop, by simp [Scene.goOn]⟩
      | some called =>
        obtain ⟨reaction, payload⟩ := called
        obtain ⟨rfl, hreacted⟩ := hdid
        obtain ⟨more, s₂, hdrained, hlast⟩ := run_bind_eq_ok hlater
        cases hlast
        -- the callback may send more, and what it leads to was counted
        have hdelivers := Move.deliver t turn rest round before id popped reaction payload htop hphase
          hpop hclaims
        obtain ⟨loop, hreacts, hstages, hroom⟩ := moves_react (t := { t.goOn turn rest
          (.reacting round (before + 1)) with loop := (popped.claim id).2 }) hreacted ⟨hfound, hkeyed⟩
          rfl rfl
        have hcounts : follows Reaction.following (some (reaction, payload)) = reaction.following := rfl
        have hfits : drainLimit Reaction.following s₁.relay ≤ limit := by
          simp only at hroom
          omega
        obtain ⟨t', hmoves, hstages, loop', rfl⟩ := ih hdrained hstages hfits rfl rfl
        exact ⟨_, .head hdelivers (hreacts.trans hmoves), hstages, loop', by
          simp [Scene.goOn, Nat.add_assoc]⟩

theorem moves_drainLoop (hran : (drainLoop l).run.run s = (.ok count, s')) (h : Stages t l s)
    (htop : t.turns = turn :: rest) (hphase : turn.phase = .draining round 0) :
    ∃ loop, Moves t { t.goOn turn rest (.drained round count) with loop } ∧
      Stages { t.goOn turn rest (.drained round count) with loop } l s' := by
  unfold drainLoop drain at hran
  obtain ⟨relay, s₁, hread, hdrained⟩ := run_bind_eq_ok hran
  cases hread
  obtain ⟨t', hmoves, hstages, loop, rfl⟩ := moves_drainWithin hdrained h (Nat.le_refl _) htop hphase
  rw [Nat.zero_add] at hmoves hstages
  exact ⟨loop, hmoves, hstages⟩

/-! ## Turns -/

/-- The milliseconds that a turn may wait. -/
def Patience.timeout : Patience → Option Nat
  | .forever => none
  | .upTo milliseconds => some milliseconds

theorem Stages.pending (h : Stages t l s) : s.relay.pending l = t.loop.pending := by
  unfold Relay.pending
  rw [h.loop]
  rfl

theorem Stages.hasToken (h : Stages t l s) : hasToken l s = t.loop.token := by
  unfold Session.hasToken
  rw [h.loop]
  rfl

theorem moves_tick (t : Scene Reaction) (n : Nat) : Moves t { t with clock := t.clock + n } := by
  induction n generalizing t with
  | zero => exact .refl t
  | succ n ih =>
    have hlater := ih { t with clock := t.clock + 1 }
    rw [show t.clock + 1 + n = t.clock + (n + 1) by omega] at hlater
    exact .head (.tick t) hlater

/-! ### Wakes that can still come -/

/-- A worker takes a task off the queue. -/
theorem tasks_work {rt rt' : Runtime} (hwork : rt.work? = some rt') :
    rt'.tasks.length + 1 = rt.tasks.length := by
  unfold Runtime.work? at hwork
  cases htasks : rt.tasks with
  | nil =>
    rw [htasks] at hwork
    cases hwork
  | cons task later =>
    rw [htasks] at hwork
    obtain rfl := Option.some.inj hwork
    have hsame : ({ rt with tasks := later }.runTask task).tasks = later := by
      unfold Runtime.runTask
      split
      dsimp only
      split <;> rfl
    rw [hsame, List.length_cons]

/-- A worker runs a task, or there is none to run. -/
theorem workOnce_cases {worked : Bool} (hran : workOnce.run.run s = (.ok worked, s')) :
    worked = false ∧ s' = s ∧ s.runtime.tasks = [] ∨
      worked = true ∧ s'.runtime.tasks.length + 1 = s.runtime.tasks.length := by
  unfold workOnce at hran
  obtain ⟨_, s₁, hread, hran⟩ := run_bind_eq_ok hran
  cases hread
  cases hwork : s.runtime.work? with
  | none =>
    rw [hwork] at hran
    cases hran
    refine .inl ⟨rfl, rfl, ?_⟩
    unfold Runtime.work? at hwork
    split at hwork
    · assumption
    · cases hwork
  | some runtime =>
    rw [hwork] at hran
    cases hran
    refine .inr ⟨rfl, ?_⟩
    -- receiving what the task sent leaves the queue alone
    have hreceived := (receiveAll_spec { s with runtime }).1
    have hfewer := tasks_work hwork
    show (receiveAll { s with runtime }).runtime.tasks.length + 1 = _
    rw [hreceived]
    exact hfewer

/-- Workers that may run all tasks stop only when the condition holds or none is left. Induction on how
many they may run. -/
theorem workUntil_cases {holds : Session → Bool} {limit : Nat}
    (hran : (workUntil holds limit).run.run s = (.ok (), s'))
    (hall : s.runtime.tasks.length ≤ limit) :
    (holds s' = true ∨ s'.runtime.tasks = []) ∧
      (s' = s ∨ s'.runtime.tasks.length < s.runtime.tasks.length) := by
  -- on the limit, which the queue never exceeds: every round takes one task
  induction limit generalizing s with
  | zero =>
    cases hran
    exact ⟨.inr (List.length_eq_zero_iff.mp (Nat.le_zero.mp hall)), .inl rfl⟩
  | succ limit ih =>
    unfold workUntil at hran
    obtain ⟨_, s₁, hread, hran⟩ := run_bind_eq_ok hran
    cases hread
    cases hholds : holds s with
    | true =>
      rw [if_pos hholds] at hran
      cases hran
      exact ⟨.inl hholds, .inl rfl⟩
    | false =>
      rw [if_neg (by simp [hholds])] at hran
      obtain ⟨worked, s₁, hworked, hrest⟩ := run_bind_eq_ok hran
      obtain ⟨rfl, rfl, hnone⟩ | ⟨rfl, hfewer⟩ := workOnce_cases hworked
      · cases hrest
        exact ⟨.inr hnone, .inl rfl⟩
      · obtain ⟨hstopped, hless⟩ := ih hrest (by omega)
        refine ⟨hstopped, .inr ?_⟩
        rcases hless with rfl | hless <;> omega

/-- So often can a loop still be woken before a callback runs: once by the token that is there, and once
by each task. -/
def wakesLeft (l : LoopId) (s : Session) : Nat := s.runtime.tasks.length + (hasToken l s).toNat

/-- A drain that runs no callback leaves the tasks and the token as they are. -/
theorem wakesLeft_drainWithin {limit : Nat}
    (hran : (drainWithin relayAccess react l limit).run.run s = (.ok 0, s')) (h : Stages t l s) :
    wakesLeft l s' = wakesLeft l s := by
  induction limit generalizing s t with
  | zero =>
    cases hran
    rfl
  | succ limit ih =>
    unfold drainWithin at hran
    obtain ⟨outcome, s₁, hdelivered, hlater⟩ := run_bind_eq_ok hran
    obtain ⟨rfl, rfl, -⟩ | ⟨id, claimed, after, hnext, hdid⟩ := deliverNext_cases hdelivered
    · cases hlater
      rfl
    · cases claimed with
      | some called =>
        -- a callback ran, and it would have been counted
        obtain ⟨rfl, -⟩ := hdid
        obtain ⟨more, s₂, -, hlast⟩ := run_bind_eq_ok hlater
        have hcount : 1 + more = 0 := Except.ok.inj (congrArg Prod.fst hlast)
        omega
      | none =>
        obtain ⟨rfl, rfl⟩ := hdid
        obtain ⟨popped, hpop, -, hfound, hkeyed, -⟩ :=
          claimNext?_spec Reaction.following h.keyed h.loop hnext
        obtain ⟨more, s₂, hdrained, hlast⟩ := run_bind_eq_ok hlater
        have hmore : 0 + more = 0 := Except.ok.inj (congrArg Prod.fst hlast)
        obtain rfl : s₂ = s' := congrArg Prod.snd hlast
        rw [show more = 0 by omega] at hdrained
        have hstages : Stages { t with loop := (popped.claim id).2 } l { s with relay := after } :=
          ⟨hfound, hkeyed⟩
        rw [ih hdrained hstages, wakesLeft, wakesLeft, hstages.hasToken, h.hasToken]
        -- taking a number off the queue does not touch the token
        have htoken : (popped.claim id).2.token = t.loop.token := by
          unfold EventLoop.pop? at hpop
          cases hready : t.loop.ready with
          | nil =>
            rw [hready] at hpop
            cases hpop
          | cons first others =>
            rw [hready] at hpop
            obtain ⟨-, rfl⟩ := Prod.mk.inj (Option.some.inj hpop)
            rfl
        rw [htoken]

theorem wakesLeft_drainLoop (hran : (drainLoop l).run.run s = (.ok 0, s')) (h : Stages t l s) :
    wakesLeft l s' = wakesLeft l s := by
  unfold drainLoop drain at hran
  obtain ⟨relay, s₁, hread, hdrained⟩ := run_bind_eq_ok hran
  cases hread
  exact wakesLeft_drainWithin hdrained h

/-! ### Waiting -/

/-- How a wait ends: with the token taken if one is there, else without. -/
theorem token_cases {patience : Patience} {ended : Woken}
    (hran : (do
      if hasToken l (← get) then
        modify fun s => { s with relay := s.relay.modifyLoop l (·.takeToken) }
        return .woken
      return if patience = .forever then .never else .timedOut : Step Woken).run.run s =
        (.ok ended, s')) :
    hasToken l s = true ∧ ended = .woken ∧
        s' = { s with relay := s.relay.modifyLoop l (·.takeToken) } ∨
      hasToken l s = false ∧ ended = (if patience = .forever then .never else .timedOut) ∧ s' = s := by
  obtain ⟨_, s₁, hread, hran⟩ := run_bind_eq_ok hran
  cases hread
  cases htoken : hasToken l s with
  | true =>
    rw [if_pos htoken] at hran
    cases hran
    exact .inl ⟨rfl, rfl, rfl⟩
  | false =>
    rw [if_neg (by simp [htoken])] at hran
    cases hran
    exact .inr ⟨rfl, rfl, rfl⟩

/-- Workers run while the owner is parked, and then the wait ends. Whoever waits for ever has waited for
all of them, and a token that was not there at first is worth a task. -/
theorem park_cases {patience : Patience} {ended : Woken}
    (hran : (park l patience).run.run s = (.ok ended, s')) :
    ∃ s₁ : Session, Disturbed Reaction.following false l 0 s.relay s₁.relay ∧
      (s₁ = s ∨ s₁.runtime.tasks.length < s.runtime.tasks.length) ∧
      (hasToken l s₁ = true ∧ ended = .woken ∧
          s' = { s₁ with relay := s₁.relay.modifyLoop l (·.takeToken) } ∨
        hasToken l s₁ = false ∧ ended = (if patience = .forever then .never else .timedOut) ∧
          s' = s₁ ∧ (patience = .forever → s₁.runtime.tasks = [])) := by
  unfold park at hran
  by_cases hlets : patience ≠ .upTo 0
  · rw [if_pos hlets] at hran
    obtain ⟨_, s₀, hread, hran⟩ := run_bind_eq_ok hran
    cases hread
    obtain ⟨_, s₁, hworked, hran⟩ := run_bind_eq_ok hran
    -- the crew worked until a token came or nothing was left
    obtain ⟨hstopped, hless⟩ := workUntil_cases hworked (Nat.le_refl _)
    refine ⟨s₁, ((hears_workUntil _ _).leaves s).of_run hworked |>.disturbed, hless, ?_⟩
    obtain htaken | ⟨htoken, hended, hsame⟩ := token_cases hran
    · exact .inl htaken
    · refine .inr ⟨htoken, hended, hsame, fun _ => hstopped.resolve_left ?_⟩
      simp [htoken]
  · rw [if_neg hlets] at hran
    refine ⟨s, .refl s.relay, .inl rfl, ?_⟩
    obtain htaken | ⟨htoken, hended, hsame⟩ := token_cases hran
    · exact .inl htaken
    · refine .inr ⟨htoken, hended, hsame, fun hforever => ?_⟩
      exact absurd (hforever ▸ not_not.mp hlets) nofun

/-- A wait that took the token has used up a wake. -/
theorem wakesLeft_takeToken {s₁ : Session} (htoken : hasToken l s₁ = true)
    (hless : s₁ = s ∨ s₁.runtime.tasks.length < s.runtime.tasks.length)
    (hfound : (s₁.relay.loop? l).isSome) :
    wakesLeft l { s₁ with relay := s₁.relay.modifyLoop l (·.takeToken) } < wakesLeft l s := by
  have hgone : hasToken l { s₁ with relay := s₁.relay.modifyLoop l (·.takeToken) } = false := by
    obtain ⟨loop, hloop⟩ := Option.isSome_iff_exists.mp hfound
    unfold hasToken
    rw [loop?_modifyLoop, if_pos rfl, hloop]
    rfl
  unfold wakesLeft
  rw [hgone]
  rcases hless with rfl | hless
  · rw [htoken]
    exact Nat.lt_succ_self _
  · exact Nat.lt_of_lt_of_le hless (Nat.le_add_right ..)

/-- What a turn comes to that returns. -/
def Returns (t t' : Scene Reaction) (rest : List Turn) (timeout : Option Nat) (count : Nat) : Prop :=
  t'.turns = rest ∧ ∃ r, t'.returned = r :: t.returned ∧ r.timeout = timeout ∧ r.count = count ∧
    r.pending = t'.loop.pending

theorem Stages.takeToken (h : Stages t l s) :
    Stages { t with loop := t.loop.takeToken } l
      { s with relay := s.relay.modifyLoop l (·.takeToken) } where
  loop := by
    show (s.relay.modifyLoop l _).loop? l = _
    rw [loop?_modifyLoop, if_pos rfl, h.loop]
    rfl
  keyed := by
    unfold Keyed
    rw [keys_modifyLoop]
    exact h.keyed

/-- A turn that has drained its queue returns if there is nothing to wait for. -/
theorem moves_ret (h : Stages t l s) (htop : t.turns = turn :: rest)
    (hphase : turn.phase = .drained round count) (hends : round.Ends count t.loop.pending) :
    ∃ t', Moves t t' ∧ Stages t' l s ∧ Returns t t' rest turn.timeout count :=
  ⟨_, .head (.ret t turn rest round count htop hphase hends) (.refl _), ⟨h.loop, h.keyed⟩, rfl,
    _, rfl, rfl, rfl, rfl⟩

/-- A drain that ran a callback, or left nothing to wait for, ends the turn. -/
theorem ends_or_goesOn {later : Step (Option Nat)} {outcome : Option Nat}
    (hran : (do
      if count > 0 || (← pending l) == 0 then return some count
      later : Step (Option Nat)).run.run s = (.ok outcome, s'))
    (h : Stages t l s) (hearly : round ≠ .timedOut) :
    round.Ends count t.loop.pending ∧ outcome = some count ∧ s' = s ∨
      ¬ round.Ends count t.loop.pending ∧ later.run.run s = (.ok outcome, s') := by
  -- only a round that timed out ends for another reason
  have hends : round.Ends count t.loop.pending ↔ 0 < count ∨ s.relay.pending l = 0 := by
    rw [h.pending]
    unfold Round.Ends
    simp [hearly]
  rw [hends]
  obtain ⟨waiting, s₁, hread, hran⟩ := run_bind_eq_ok hran
  obtain ⟨_, s₂, hgot, hread⟩ := run_bind_eq_ok hread
  cases hgot
  cases hread
  by_cases hdone : 0 < count ∨ s.relay.pending l = 0
  · rw [if_pos (by simpa using hdone)] at hran
    cases hran
    exact .inl ⟨hdone, rfl, rfl⟩
  · rw [if_neg (by simpa using hdone)] at hran
    exact .inr ⟨hdone, hran⟩

/-- A turn parks, and the workers send. With a timeout it has a deadline then. -/
theorem moves_park (h : Stages t l s) (htop : t.turns = turn :: rest)
    (hphase : turn.phase = .drained round count) (hwaits : ¬ round.Ends count t.loop.pending)
    (hdisturbed : Disturbed Reaction.following false l 0 s.relay s'.relay) :
    ∃ parked loop, Moves t { t with turns := parked :: rest, loop } ∧
      Stages { t with turns := parked :: rest, loop } l s' ∧ parked.phase = .parked ∧
      parked.timeout = turn.timeout ∧ (turn.timeout.isSome → parked.deadline.isSome) := by
  have hparks := Move.park t turn rest round count htop hphase hwaits
  have hstages : Stages (t.goOn { turn with
      deadline := turn.deadline.or (turn.timeout.map (t.clock + ·)) } rest .parked) l s :=
    ⟨h.loop, h.keyed⟩
  obtain ⟨loop, hsends, hstages⟩ := hstages.disturbed hdisturbed nofun
  exact ⟨_, loop, .head hparks hsends, hstages, rfl, rfl, by simp +contextual⟩

/-- A parked turn that finds the token drains again. -/
theorem moves_woken (hran : (drainLoop l).run.run
      { s with relay := s.relay.modifyLoop l (·.takeToken) } = (.ok count, s'))
    (h : Stages t l s) (htop : t.turns = turn :: rest) (hphase : turn.phase = .parked)
    (htoken : t.loop.token = true) :
    ∃ loop, Moves t { t.goOn turn rest (.drained .woken count) with loop } ∧
      Stages { t.goOn turn rest (.drained .woken count) with loop } l s' := by
  have hwakes := Move.wake t turn rest htop hphase htoken
  have hstages : Stages { t.goOn turn rest (.draining .woken 0) with loop := t.loop.takeToken } l
      { s with relay := s.relay.modifyLoop l (·.takeToken) } := ⟨h.takeToken.loop, h.takeToken.keyed⟩
  obtain ⟨loop, hdrains, hstages⟩ := moves_drainLoop hran hstages rfl rfl
  exact ⟨loop, .head hwakes hdrains, hstages⟩

/-- A parked turn without the token lets its time pass and drains for the last time. -/
theorem moves_timedOut (hran : (drainLoop l).run.run s = (.ok count, s')) (h : Stages t l s)
    (htop : t.turns = turn :: rest) (hphase : turn.phase = .parked) (htoken : t.loop.token = false)
    (hdeadline : turn.deadline.isSome) :
    ∃ t', Moves t t' ∧ Stages t' l s' ∧ Returns t t' rest turn.timeout count := by
  obtain ⟨d, hdeadline⟩ := Option.isSome_iff_exists.mp hdeadline
  have hwaits := moves_tick t d
  have htimes := Move.timeOut { t with clock := t.clock + d } turn rest d htop hphase htoken hdeadline
    (Nat.le_add_left d t.clock)
  have hstages : Stages (Scene.goOn { t with clock := t.clock + d } turn rest (.draining .timedOut 0))
      l s := ⟨h.loop, h.keyed⟩
  obtain ⟨loop, hdrains, hstages⟩ := moves_drainLoop hran hstages rfl rfl
  obtain ⟨t', hreturns, hstages, hdone⟩ := moves_ret hstages rfl rfl (.inr (.inr rfl))
  exact ⟨t', hwaits.trans (.head htimes (hdrains.trans hreturns)), hstages, hdone⟩

/-- What becomes of a turn: it returns, or it is blocked and no task is left that could wake it. -/
def ComesTo (t t' : Scene Reaction) (rest : List Turn) (patience : Patience) (s' : Session) :
    Option Nat → Prop
  | some count => Returns t t' rest patience.timeout count
  | none => patience = .forever ∧ t'.Blocked ∧ t'.sending = t.sending ∧ s'.runtime.tasks = []

/-- A turn that has drained its queue and has to wait. By induction on the wakes that are allowed for:
they are never used up, since each takes one of those that are left. -/
theorem moves_awaitDelivery {patience : Patience} {limit : Nat} {outcome : Option Nat}
    (hran : (awaitDelivery l patience limit).run.run s = (.ok outcome, s'))
    (h : Stages t l s) (htop : t.turns = turn :: rest) (hphase : turn.phase = .drained round before)
    (hwaits : ¬ round.Ends before t.loop.pending) (htimeout : turn.timeout = patience.timeout)
    (hwakes : wakesLeft l s < limit) :
    ∃ t', Moves t t' ∧ Stages t' l s' ∧ ComesTo t t' rest patience s' outcome := by
  induction limit generalizing s t turn round before with
  | zero => exact absurd hwakes (Nat.not_lt_zero _)
  | succ limit ih =>
    unfold awaitDelivery at hran
    obtain ⟨ended, s₂, hparking, hran⟩ := run_bind_eq_ok hran
    obtain ⟨s₁, hdisturbed, hless, hhow⟩ := park_cases hparking
    obtain ⟨parked, loop, hparks, hstages, hphase, hsame, hdeadline⟩ :=
      moves_park h htop hphase hwaits hdisturbed
    rw [htimeout] at hsame hdeadline
    obtain ⟨htoken, rfl, rfl⟩ | ⟨htoken, rfl, rfl, hworked⟩ := hhow
    · have hused := wakesLeft_takeToken htoken hless (by rw [hstages.loop]; rfl)
      rw [hstages.hasToken] at htoken
      obtain ⟨again, s₃, hdrained, hran⟩ := run_bind_eq_ok hran
      obtain ⟨loop, hwoken, hstages'⟩ := moves_woken hdrained hstages rfl hphase htoken
      have hearly : Round.woken ≠ .timedOut := by decide
      obtain ⟨hends, ⟨⟩, rfl⟩ | ⟨hwaits, hlater⟩ := ends_or_goesOn hran hstages' hearly
      · obtain ⟨t', hreturns, hstages', hdone⟩ := moves_ret hstages' rfl rfl hends
        rw [hsame] at hdone
        exact ⟨t', hparks.trans (hwoken.trans hreturns), hstages', hdone⟩
      -- the drain ran no callback, so it has brought no wake
      · obtain rfl : again = 0 := Nat.eq_zero_of_not_pos fun hsome => hwaits (.inl hsome)
        have hkept := wakesLeft_drainLoop hdrained hstages.takeToken
        obtain ⟨t', hgoesOn, hstages', hdone⟩ := ih hlater hstages' rfl rfl hwaits hsame (by omega)
        exact ⟨t', hparks.trans (hwoken.trans hgoesOn), hstages', hdone⟩
    -- nobody has woken the loop: its time is up, if it has any
    · rw [hstages.hasToken] at htoken
      cases patience with
      | forever =>
        cases hran
        exact ⟨_, hparks, hstages, rfl, ⟨htoken, parked, rfl, hphase⟩, rfl, hworked rfl⟩
      | upTo milliseconds =>
        obtain ⟨last, s₃, hdrained, hran⟩ := run_bind_eq_ok hran
        cases hran
        obtain ⟨t', htimes, hstages, hdone⟩ :=
          moves_timedOut hdrained hstages rfl hphase htoken (hdeadline rfl)
        rw [hsame] at hdone
        exact ⟨t', hparks.trans htimes, hstages, hdone⟩

/-- A `runOnce` of a session, begun where its owner is free, is a turn that returns, or one that waits
where nobody is left to wake it. -/
theorem moves_runOnce {patience : Patience} {outcome : Option Nat}
    (hran : (runOnce l patience).run.run s = (.ok outcome, s')) (h : Stages t l s)
    (hfree : t.Free) :
    ∃ t', Moves t t' ∧ Stages t' l s' ∧ ComesTo t t' t.turns patience s' outcome := by
  unfold runOnce at hran
  have henters := Move.enter t patience.timeout hfree
  have hstages : Stages { t with
      turns := { timeout := patience.timeout, since := t.clock } :: t.turns } l s := ⟨h.loop, h.keyed⟩
  obtain ⟨first, s₁, hdrained, hran⟩ := run_bind_eq_ok hran
  obtain ⟨loop, hdrains, hstages⟩ := moves_drainLoop hdrained hstages rfl rfl
  have hearly : Round.opening ≠ .timedOut := by decide
  obtain ⟨hends, ⟨⟩, rfl⟩ | ⟨hwaits, hran⟩ := ends_or_goesOn hran hstages hearly
  · obtain ⟨t', hreturns, hstages, hdone⟩ := moves_ret hstages rfl rfl hends
    exact ⟨t', .head henters (hdrains.trans hreturns), hstages, hdone⟩
  · obtain ⟨_, s₂, hread, hran⟩ := run_bind_eq_ok hran
    cases hread
    -- a token and every queued task can wake the loop once more
    have hwakes : wakesLeft l s₁ < s₁.runtime.tasks.length + 2 := by
      have htoken := (hasToken l s₁).toNat_le
      unfold wakesLeft
      omega
    obtain ⟨t', hwaiting, hstages, hdone⟩ := moves_awaitDelivery hran hstages rfl rfl hwaits rfl hwakes
    exact ⟨t', .head henters (hdrains.trans hwaiting), hstages, hdone⟩

/-! ## No lost wake-up -/

/-- However senders interleave with the turns of an owner, it is never left blocked with something
ready and every sender done. A turn that may wait for ever returns without having run a callback only
when nothing is pending, and one with a timeout only then or when its time was up and a last drain ran
nothing. Each `runOnce` of a session is such a turn; one that would wait for ever is blocked with
nothing ready, no task is left for the workers, and only a turn without a timeout comes to that. -/
theorem runOnce_loses_no_wake_up :
    (∀ {κ : Type} {t : Scene κ}, t.Reachable →
      ¬ (t.Blocked ∧ t.loop.ready ≠ [] ∧ t.sending = []) ∧
        ∀ r ∈ t.returned, r.count = 0 →
          (r.timeout = none → r.pending = 0) ∧
          ∀ ms, r.timeout = some ms →
            r.pending = 0 ∨ r.round = .timedOut ∧ r.since + ms ≤ r.clock) ∧
      (∀ {t : Scene Reaction} {l : LoopId} {s s' : Session} {patience : Patience} {count : Nat},
        t.Reachable → t.Free → Stages t l s →
        (runOnce l patience).run.run s = (.ok (some count), s') →
        ∃ t', t'.Reachable ∧ Moves t t' ∧ Stages t' l s' ∧ t'.turns = t.turns ∧
          ∃ r, t'.returned = r :: t.returned ∧ r.timeout = patience.timeout ∧ r.count = count ∧
            r.pending = s'.relay.pending l) ∧
      ∀ {t : Scene Reaction} {l : LoopId} {s s' : Session} {patience : Patience},
        t.Reachable → t.Free → t.sending = [] → Stages t l s →
        (runOnce l patience).run.run s = (.ok none, s') →
        patience = .forever ∧ s'.runtime.tasks = [] ∧
          ∃ t', t'.Reachable ∧ Moves t t' ∧ Stages t' l s' ∧ t'.Blocked ∧ t'.loop.ready = [] := by
  refine ⟨no_lost_wake_up, ?_, ?_⟩
  · intro t l s s' patience count hstart hfree hstages hran
    obtain ⟨t', hmoves, hstages, hturns, r, hreturned, htimeout, hdelivered, hleft⟩ :=
      moves_runOnce hran hstages hfree
    exact ⟨t', hmoves.reachable hstart, hmoves, hstages, hturns, r, hreturned, htimeout, hdelivered,
      hleft.trans hstages.pending.symm⟩
  · intro t l s s' patience hstart hfree hsent hstages hran
    obtain ⟨t', hmoves, hstages, hforever, hblocked, hsending, hworked⟩ :=
      moves_runOnce hran hstages hfree
    have hreach := hmoves.reachable hstart
    -- it is blocked and nobody is on the way, so nothing can be ready
    refine ⟨hforever, hworked, t', hreach, hmoves, hstages, hblocked, by_contra fun hready => ?_⟩
    exact (no_lost_wake_up hreach).1 ⟨hblocked, hready, hsending.trans hsent⟩

/-- A loop whose owner slept again after a token left over from the number of no call. The sender of
call 1 has pushed it and is yet to leave the token. -/
def beforeWake : Scene Reaction where
  loop := {
    waiting := [{ id := 1, callback := .note 5, slot := some { resultType := 0, result := 3 } }]
    ready := [1] }
  sending := [1]
  turns := [{ timeout := none, since := 0, phase := .parked }]

/-- A loop that waits for call 1, with the token of another one. -/
def lonely : EventLoop Reaction where
  waiting := [{ id := 1, callback := .note 5 }]
  token := true

theorem beforeWake_reachable : beforeWake.Reachable := by
  have hstart : Scene.Reachable { loop := { 
      waiting := [{ id := 1, callback := Reaction.note 5 }], ready := [7], token := true } } :=
    .start _ [] 0
  have hentered := hstart.step (.enter _ none nofun)
  have hskipped := hentered.step (.skip _ _ _ .opening 0 7 _ rfl rfl rfl rfl)
  have hdrained := hskipped.step (.empty _ _ _ .opening 0 rfl rfl rfl)
  have hparked := hdrained.step (.park _ _ _ .opening 0 rfl rfl (by decide))
  have hwoken := hparked.step (.wake _ _ _ rfl rfl rfl)
  have hdrained := hwoken.step (.empty _ _ _ .woken 0 rfl rfl rfl)
  have hparked := hdrained.step (.park _ _ _ .woken 0 rfl rfl (by decide))
  have hfilled := hparked.step (.fill _ 1 { resultType := 0, result := 3 })
  exact hfilled.step (.push _ 1)

theorem beforeWake_is_not_stranded :
    beforeWake.Blocked ∧ beforeWake.loop.ready = [1] ∧ beforeWake.sending ≠ [] ∧
      (∃ (t' : Scene Reaction) (r : Return), t'.Reachable ∧ t'.returned = [r] ∧ r.timeout = none ∧
        r.count = 1 ∧ r.pending = 0) ∧
      ∃ t' : Scene Reaction, t'.Reachable ∧ t'.Blocked ∧ t'.loop.ready = [] := by
  have hblocked : beforeWake.Blocked := ⟨rfl, _, rfl, rfl⟩
  refine ⟨hblocked, rfl, ?_, ?_, ?_⟩
  · intro hsent
    exact (runOnce_loses_no_wake_up.1 beforeWake_reachable).1
      ⟨hblocked, List.cons_ne_nil 1 [], hsent⟩
  · have hreach : Scene.Reachable { loop := beforeWake.loop.unpark } := .start _ [] 0
    -- a session with that loop, once its sender is done
    have hran : ((runOnce 0 .forever).run.run
        { relay := { loops := [(0, beforeWake.loop.unpark)] } }).1 = .ok (some 1) := rfl
    obtain ⟨t', hreach, _, _, _, r, hreturned, htimeout, hcount, hpending⟩ :=
      runOnce_loses_no_wake_up.2.1 hreach nofun ⟨rfl, by simp [Keyed]⟩ (Prod.ext hran rfl)
    exact ⟨t', r, hreach, hreturned, htimeout, hcount, hpending⟩
  · -- a session that waits for a call that nobody will complete, after a token left over
    have hreach : Scene.Reachable { loop := lonely } := .start _ [] 0
    have hran : ((runOnce 0 .forever).run.run { relay := { loops := [(0, lonely)] } }).1 =
        .ok none := rfl
    obtain ⟨-, -, t', hreach', -, -, hblocked, hready⟩ :=
      runOnce_loses_no_wake_up.2.2 hreach nofun rfl ⟨rfl, by simp [Keyed]⟩ (Prod.ext hran rfl)
    exact ⟨t', hreach', hblocked, hready⟩

end GridBridge.Session
