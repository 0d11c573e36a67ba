import GridBridge.Proofs.Relay.Registry

/-!
# Issuing, step by step

In relay traffic a call is issued in one step and taken back in one step. On its thread an issue has
more steps: it registers the call with its loop, puts it in the registry, calls the managed side, and
if that fails takes the call out of the registry and then off the loop. Other threads go on between
any two of them, with signals for this very call too, and early ones. An **`Issuance`** is relay
traffic with the issues that are under way.

The owner of a loop issues on it and delivers on it, so a loop neither delivers nor goes away while an
issue on it is under way (`Step.beside`). That is why the callback of a call that is being taken back
cannot run.

Every state here is a state of relay traffic but for the registry, which lacks the calls that an issue
has not put in yet or has taken out again. `Refines` says so, and `Reachable.refines` that some state
of relay traffic is always underneath, so what holds of relay traffic holds here.
-/

namespace GridBridge.Relay

open Protocol

variable {κ : Type}

/-! ## Parts of an issue -/

/-- Registers a call with its loop, under the next number. -/
def enroll (r : Relay κ) (l : LoopId) (callback : κ) : Relay κ :=
  { r.modifyLoop l (·.register r.nextCall callback) with nextCall := r.nextCall + 1 }

/-- Puts a call in the registry. -/
def insert (r : Relay κ) (id : CallId) (l : LoopId) : Relay κ :=
  { r with inFlight := (id, l) :: r.inFlight }

/-- The two parts of a withdrawal in a row are the withdrawal. -/
theorem withdraw_take (r : Relay κ) (l : LoopId) (id : CallId) :
    (r.take id).2.modifyLoop l (·.withdraw id) = r.withdraw l id := rfl

/-! ## State -/

/-- How far an issue has come. -/
inductive Progress where
  /-- The call waits on its loop. -/
  | registered
  /-- The call is in the registry, and the managed side is called. -/
  | calling
  /-- The call failed and is out of the registry. Says whether it was still there. -/
  | forgotten (found : Bool)
  deriving DecidableEq, Repr

/-- An issue under way. -/
structure Issuing (κ : Type) extends Issued κ where
  progress : Progress

/-- The registry lacks the call on behalf of its issue. -/
def Issuing.Hides (c : Issuing κ) : Prop := c.progress = .registered ∨ c.progress = .forgotten true

/-- Relay traffic with issues under way. The calls that were issued are listed from their registration
until they are taken off their loop. -/
structure Issuance (κ : Type) where
  traffic : Traffic κ := {}
  issuing : List (Issuing κ) := []
  /-- Calls whose issue returned. -/
  accepted : List (Issued κ) := []
  /-- Calls whose issue ended in an error. -/
  refused : List (Issued κ) := []

namespace Issuance

abbrev relay (f : Issuance κ) : Relay κ := f.traffic.relay

/-- The issues of other calls. -/
def others (f : Issuance κ) (id : CallId) : List (Issuing κ) := f.issuing.filter (·.id != id)

/-- Goes on with one issue. -/
def advance (f : Issuance κ) (c : Issuing κ) (progress : Progress) : List (Issuing κ) :=
  { c with progress } :: f.others c.id

/-- The traffic with another registry. -/
def shown (f : Issuance κ) (registry : List (CallId × LoopId)) : Traffic κ :=
  { f.traffic with relay := { f.traffic.relay with inFlight := registry } }

/-- The other issues have other numbers. -/
theorem mem_others {f : Issuance κ} {id : CallId} {c : Issuing κ} :
    c ∈ f.others id ↔ c ∈ f.issuing ∧ c.id ≠ id := by
  simp [others]

/-- After one has gone on it is there in its new place. -/
theorem mem_advance {f : Issuance κ} {c c' : Issuing κ} {progress : Progress} :
    c' ∈ f.advance c progress ↔ c' = { c with progress } ∨ (c' ∈ f.issuing ∧ c'.id ≠ c.id) := by
  rw [advance, List.mem_cons, mem_others]

end Issuance

/-! ## Steps -/

/-- One step that is no part of an issue, with the loop whose owner does it, if any, and the numbers
that it is about. -/
inductive Beside : Traffic κ → Option LoopId → List CallId → Traffic κ → Prop where
  | openLoop (t : Traffic κ) : Beside t none [] { t with relay := t.relay.openLoop.2 }
  | dropLoop (t : Traffic κ) (l : LoopId) :
      Beside t (some l) (t.relay.waitingOn l) { t with relay := t.relay.dropLoop l }
  | ignore (t : Traffic κ) (id : CallId) (hunknown : (t.relay.take id).1 = none) :
      Beside t none [id] { t with relay := (t.relay.take id).2 }
  | take (t : Traffic κ) (id : CallId) (payload : Completion) (l : LoopId)
      (hknown : (t.relay.take id).1 = some l) :
      Beside t none [id] { t with
        relay := (t.relay.take id).2
        taken := t.taken ++ [(id, payload)]
        underway := ⟨id, l, payload, .taken⟩ :: t.underway }
  | fill (t : Traffic κ) (c : Courier) (hmem : c ∈ t.underway) (hstage : c.stage = .taken) :
      Beside t none [c.id] { t with
        relay := t.relay.modifyLoop c.loop (·.fill c.id c.payload)
        underway := t.advance c .filled }
  | push (t : Traffic κ) (c : Courier) (hmem : c ∈ t.underway) (hstage : c.stage = .filled) :
      Beside t none [c.id] { t with
        relay := t.relay.modifyLoop c.loop (·.push c.id)
        underway := t.advance c .pushed }
  | unpark (t : Traffic κ) (c : Courier) (hmem : c ∈ t.underway) (hstage : c.stage = .pushed) :
      Beside t none [c.id] { t with
        relay := t.relay.modifyLoop c.loop (·.unpark)
        underway := t.underway.erase c
        settled := c.id :: t.settled }
  | deliver (t : Traffic κ) (l : LoopId) (id : CallId) (claimed : Option (κ × Completion))
      (after : Relay κ) (hnext : t.relay.claimNext? l = some (id, claimed, after)) :
      Beside t (some l) [id] { t with
        relay := after
        runs := t.runs ++ (claimed.map fun (callback, payload) =>
          (⟨id, l, callback, payload⟩ : Run κ)).toList }

namespace Issuance

/-- One step of one thread, with the numbers that it is about. -/
inductive Step : Issuance κ → List CallId → Issuance κ → Prop where
  /-- No step of an issue. The owner of a loop does nothing else while it issues. -/
  | beside (f : Issuance κ) (owner : Option LoopId) (ids : List CallId) (t : Traffic κ)
      (hnext : Beside f.traffic owner ids t)
      (hidle : ∀ l, owner = some l → ∀ c ∈ f.issuing, c.loop ≠ l) :
      Step f ids { f with traffic := t }
  | register (f : Issuance κ) (l : LoopId) (callback : κ) (halive : f.relay.Alive l) :
      Step f [f.relay.nextCall] { f with
        traffic := { f.traffic with
          relay := f.relay.enroll l callback
          begun := f.traffic.begun + 1
          issued := ⟨f.relay.nextCall, l, callback⟩ :: f.traffic.issued }
        issuing := ⟨⟨f.relay.nextCall, l, callback⟩, .registered⟩ :: f.issuing }
  | insert (f : Issuance κ) (c : Issuing κ) (hmem : c ∈ f.issuing)
      (hprogress : c.progress = .registered) :
      Step f [c.id] { f with
        traffic := { f.traffic with relay := f.relay.insert c.id c.loop }
        issuing := f.advance c .calling }
  /-- The call was accepted, and its issue returns. -/
  | accept (f : Issuance κ) (c : Issuing κ) (hmem : c ∈ f.issuing) (hprogress : c.progress = .calling) :
      Step f [c.id] { f with
        issuing := f.others c.id
        accepted := c.toIssued :: f.accepted }
  /-- The call failed, and the registry forgets it. -/
  | forget (f : Issuance κ) (c : Issuing κ) (hmem : c ∈ f.issuing) (hprogress : c.progress = .calling) :
      Step f [c.id] { f with
        traffic := { f.traffic with relay := (f.relay.take c.id).2 }
        issuing := f.advance c (.forgotten (f.relay.take c.id).1.isSome) }
  /-- The loop waits for it no longer, and its issue ends in an error. -/
  | withdraw (f : Issuance κ) (c : Issuing κ) (found : Bool) (hmem : c ∈ f.issuing)
      (hprogress : c.progress = .forgotten found) :
      Step f [c.id] { f with
        traffic := { f.traffic with
          relay := f.relay.modifyLoop c.loop (·.withdraw c.id)
          issued := f.traffic.issued.filter (·.id != c.id) }
        issuing := f.others c.id
        refused := c.toIssued :: f.refused }

/-- Steps in a row, with all the numbers that they are about. -/
inductive Steps : Issuance κ → List CallId → Issuance κ → Prop where
  | refl (f : Issuance κ) : Steps f [] f
  | head {f f' f'' : Issuance κ} {ids ids' : List CallId} (hnext : Step f ids f')
      (hrest : Steps f' ids' f'') : Steps f (ids ++ ids') f''

/-- States that some order of steps leads to. -/
inductive Reachable : Issuance κ → Prop where
  | fresh : Reachable {}
  | step {f f' : Issuance κ} {ids : List CallId} (hreach : Reachable f) (hnext : Step f ids f') :
      Reachable f'

variable {f f' f'' : Issuance κ} {ids ids' : List CallId}

/-- Steps after steps. -/
theorem Steps.trans (hsteps : Steps f ids f') (hmore : Steps f' ids' f'') :
    Steps f (ids ++ ids') f'' := by
  induction hsteps with
  | refl _ => exact hmore
  | head hnext _ ih =>
    rw [List.append_assoc]
    exact .head hnext (ih hmore)

/-- One step. -/
theorem Steps.single (hnext : Step f ids f') : Steps f ids f' := by
  rw [← List.append_nil ids]
  exact .head hnext (.refl _)

/-- What is reached by steps is reachable. -/
theorem Reachable.steps (hreach : Reachable f) (hsteps : Steps f ids f') : Reachable f' := by
  induction hsteps with
  | refl _ => exact hreach
  | head hnext _ ih => exact ih (hreach.step hnext)

end Issuance

/-! ## What a step beside the issues keeps -/

section Beside

variable {t t' : Traffic κ} {owner : Option LoopId} {ids : List CallId}

/-- What happens beside the issues is a step of traffic. -/
theorem Beside.step (hnext : Beside t owner ids t') : Step t t' := by
  cases hnext with
  | openLoop => exact .openLoop t
  | dropLoop l => exact .dropLoop t l
  | ignore id hunknown => exact .ignore t id hunknown
  | take id payload l hknown => exact .take t id payload l hknown
  | fill c hmem hstage => exact .fill t c hmem hstage
  | push c hmem hstage => exact .push t c hmem hstage
  | unpark c hmem hstage => exact .unpark t c hmem hstage
  | deliver l id claimed after hfound => exact .deliver t l id claimed after hfound

/-- No call is issued beside the issues. -/
theorem Beside.issued_eq (hnext : Beside t owner ids t') : t'.issued = t.issued := by
  cases hnext <;> rfl

/-- So no number is given out. -/
theorem Beside.begun_eq (hnext : Beside t owner ids t') : t'.begun = t.begun := by
  cases hnext <;> rfl

/-- Loops other than the owner's stay alive. -/
theorem Beside.alive (hnext : Beside t owner ids t') {l : LoopId} (hother : owner ≠ some l)
    (halive : t.relay.Alive l) : t'.relay.Alive l := by
  cases hnext with
  | openLoop => exact alive_openLoop.mpr (.inr halive)
  | dropLoop l' => exact alive_dropLoop.mpr ⟨fun hsame => hother (hsame ▸ rfl), halive⟩
  | ignore id hunknown => exact halive
  | take id payload l' hknown => exact halive
  | fill c hmem hstage => exact alive_modifyLoop.mpr halive
  | push c hmem hstage => exact alive_modifyLoop.mpr halive
  | unpark c hmem hstage => exact alive_modifyLoop.mpr halive
  | deliver l' id claimed after hfound => exact (alive_claimNext hfound).mpr halive

/-- A callback runs on the loop of the owner, which waited for its call. -/
theorem Beside.runs (hnext : Beside t owner ids t') {run : Run κ} (hmem : run ∈ t'.runs) :
    run ∈ t.runs ∨ (owner = some run.loop ∧ ∃ e, t.relay.WaitsOn run.loop e ∧ e.id = run.id) := by
  cases hnext with
  | deliver l id claimed after hfound =>
    refine (List.mem_append.mp hmem).imp_right fun hnew => ?_
    obtain ⟨loop, rest, halive, hready, rfl, -⟩ := claimNext?_eq_some hfound
    cases hwaiting : loop.find? id with
    | none => simp [hwaiting] at hnew
    | some e =>
      cases hslot : e.slot with
      | none => simp [hwaiting, hslot] at hnew
      | some payload =>
        obtain rfl : run = ⟨id, l, e.callback, payload⟩ := by simpa [hwaiting, hslot] using hnew
        have hsame : e.id = id := by simpa using List.find?_some hwaiting
        exact ⟨rfl, e, ⟨loop, halive, List.mem_of_find?_eq_some hwaiting⟩, hsame⟩
  | _ => exact .inl hmem

/-- No call begins to wait. -/
theorem Beside.waits (hnext : Beside t owner ids t') (hfresh : ¬ t.relay.Alive t.relay.nextLoop)
    {l : LoopId} {e : Waiting κ} (hwaits : t'.relay.WaitsOn l e) :
    ∃ e₀, t.relay.WaitsOn l e₀ ∧ e₀.id = e.id := by
  cases hnext with
  | openLoop => exact ⟨e, (waitsOn_openLoop hfresh).mp hwaits, rfl⟩
  | dropLoop l' => exact ⟨e, (waitsOn_dropLoop.mp hwaits).2, rfl⟩
  | ignore id hunknown => exact ⟨e, hwaits, rfl⟩
  | take id payload l' hknown => exact ⟨e, hwaits, rfl⟩
  | fill c hmem hstage =>
    obtain ⟨e₀, hwaited, rfl⟩ := waitsOn_fill.mp hwaits
    refine ⟨e₀, hwaited, ?_⟩
    split <;> rfl
  | push c hmem hstage =>
    exact ⟨e, (waitsOn_modifyLoop_of_waiting (f := (·.push c.id)) fun _ => rfl).mp hwaits, rfl⟩
  | unpark c hmem hstage =>
    exact ⟨e, (waitsOn_modifyLoop_of_waiting (f := (·.unpark)) fun _ => rfl).mp hwaits, rfl⟩
  | deliver l' id claimed after hfound => exact ⟨e, ((waitsOn_claimNext hfound).mp hwaits).1, rfl⟩

end Beside

/-! ## Relay traffic underneath -/

/-- Nothing is left of a number that was handed out. -/
structure Absent (t : Traffic κ) (id : CallId) : Prop where
  known : id.toNat ≤ t.begun
  waits : ∀ {l e}, t.relay.WaitsOn l e → e.id ≠ id
  unrun : ∀ run ∈ t.runs, run.id ≠ id

/-- A call whose issue is under way: its loop is there, and its callback has not run. -/
structure Ongoing (t : Traffic κ) (call : Issued κ) : Prop where
  issued : call ∈ t.issued
  alive : t.relay.Alive call.loop
  unrun : ∀ run ∈ t.runs, run.id ≠ call.id

/-- The traffic with this registry is what the issues look like from outside. -/
structure Refines (f : Issuance κ) (registry : List (CallId × LoopId)) : Prop where
  flight : ∀ {id l}, (id, l) ∈ registry ↔
    (id, l) ∈ f.relay.inFlight ∨ ∃ c ∈ f.issuing, c.Hides ∧ c.id = id ∧ c.loop = l
  away : ∀ {c}, c ∈ f.issuing → c.progress ≠ .calling → ∀ l, (c.id, l) ∉ f.relay.inFlight
  once : ∀ {c c'}, c ∈ f.issuing → c' ∈ f.issuing → c.id = c'.id → c = c'
  ongoing : ∀ {c}, c ∈ f.issuing → Ongoing f.traffic c.toIssued
  accepted : ∀ {call}, call ∈ f.accepted →
    call ∈ f.traffic.issued ∧ ∀ c ∈ f.issuing, c.id ≠ call.id
  refused : ∀ {call}, call ∈ f.refused → Absent f.traffic call.id

/-- While the managed side is called, the call is in the registry. -/
theorem Issuing.Hides.ne_calling {c : Issuing κ} (h : c.Hides) : c.progress ≠ .calling := by
  rintro hcalling
  rcases h with h | h <;> exact absurd (hcalling.symm.trans h) (by simp)

/-- What the registry lists is found there. -/
theorem isSome_take {r : Relay κ} {id : CallId} {l : LoopId} (hlisted : (id, l) ∈ r.inFlight) :
    (r.take id).1.isSome = true := by
  by_contra habsent
  have hnone : r.inFlight.lookup id = none := Option.not_isSome_iff_eq_none.mp habsent
  simpa using List.lookup_eq_none_iff.mp hnone _ hlisted

/-- Taking a number off a queue does not look at the registry. -/
theorem claimNext?_inFlight {r after : Relay κ} {l : LoopId} {id : CallId}
    {claimed : Option (κ × Completion)} (hnext : r.claimNext? l = some (id, claimed, after))
    (registry : List (CallId × LoopId)) :
    ({ r with inFlight := registry } : Relay κ).claimNext? l =
      some (id, claimed, { after with inFlight := registry }) := by
  obtain ⟨loop, rest, halive, hready, rfl, rfl⟩ := claimNext?_eq_some hnext
  have halive' : ({ r with inFlight := registry } : Relay κ).loop? l = some loop := halive
  unfold claimNext? EventLoop.pop?
  rw [halive', Option.bind_some, hready]
  rfl

namespace Refines

variable {f : Issuance κ} {registry registry' : List (CallId × LoopId)} {owner : Option LoopId}
  {ids : List CallId} {t : Traffic κ}

/-- What is in the registry is in the one seen from outside. -/
theorem sees (h : Refines f registry) {id : CallId} {l : LoopId} (hmem : (id, l) ∈ f.relay.inFlight) :
    (id, l) ∈ registry := h.flight.mpr (.inl hmem)

/-- A call under issue waits on the loop of its issue. -/
theorem waits (h : Refines f registry) (hsound : Sound (f.shown registry)) {c : Issuing κ}
    (hmem : c ∈ f.issuing) : ∃ e, f.relay.WaitsOn c.loop e ∧ e.id = c.id ∧ e.callback = c.callback := by
  have hongoing := h.ongoing hmem
  obtain ⟨e, hwaits, hsame⟩ := hsound.issuedWaits hongoing.issued hongoing.alive hongoing.unrun
  exact ⟨e, hwaits, hsame, (hsound.waitsIssued hwaits hongoing.issued hsame.symm).2.symm⟩

/-- It waits nowhere else. -/
theorem loop_eq (h : Refines f registry) (hsound : Sound (f.shown registry)) {c : Issuing κ}
    (hmem : c ∈ f.issuing) {l : LoopId} {e : Waiting κ} (hwaits : f.relay.WaitsOn l e)
    (hsame : e.id = c.id) : c.loop = l :=
  (hsound.waitsIssued hwaits (h.ongoing hmem).issued hsame.symm).1

/-- And it is in the registry under no other loop. -/
theorem loop_eq_of_mem (h : Refines f registry) (hsound : Sound (f.shown registry)) {c : Issuing κ}
    (hmem : c ∈ f.issuing) {l : LoopId} (hregistered : (c.id, l) ∈ registry) : c.loop = l := by
  obtain ⟨e, hwaits, hsame⟩ := hsound.flightWaits hregistered
  exact h.loop_eq hsound hmem hwaits hsame

/-- A step beside the issues takes the same numbers out of both registries, and none of a call that an
issue keeps out. -/
theorem beside (h : Refines f registry) (hsound : Sound (f.shown registry))
    (hnext : Beside f.traffic owner ids t)
    (hidle : ∀ l, owner = some l → ∀ c ∈ f.issuing, c.loop ≠ l) (gone : CallId → Prop)
    (houtside : ∀ id l, (id, l) ∈ registry' ↔ (id, l) ∈ registry ∧ ¬ gone id)
    (hinside : ∀ id l, (id, l) ∈ t.relay.inFlight ↔ (id, l) ∈ f.relay.inFlight ∧ ¬ gone id)
    (hapart : ∀ c ∈ f.issuing, c.Hides → ¬ gone c.id) :
    Refines { f with traffic := t } registry' where
  flight := by
    intro id l
    rw [houtside, h.flight, hinside, or_and_right]
    refine or_congr_right ⟨And.left, fun hhidden => ⟨hhidden, ?_⟩⟩
    obtain ⟨c, hmem, hhides, rfl, -⟩ := hhidden
    exact hapart c hmem hhides
  away := fun hmem hprogress l hlisted => h.away hmem hprogress l ((hinside _ l).mp hlisted).1
  once := h.once
  -- the step may run a callback of its own loop, on which nothing is being issued
  ongoing := by
    intro c hmem
    have hongoing := h.ongoing hmem
    refine ⟨hnext.issued_eq ▸ hongoing.issued, hnext.alive (fun hown => hidle _ hown c hmem rfl)
      hongoing.alive,
      fun run hran => ?_⟩
    rcases hnext.runs hran with hran | ⟨hown, e, hwaits, hsame⟩
    · exact hongoing.unrun run hran
    · rintro hsameRun
      exact hidle _ hown c hmem (h.loop_eq hsound hmem hwaits (hsame.trans hsameRun))
  accepted := fun hmem => hnext.issued_eq ▸ h.accepted hmem
  refused := by
    intro call hmem
    have habsent := h.refused hmem
    -- a loop opened by the step is a new one, where nobody waits yet
    have hfresh : ¬ f.relay.Alive f.relay.nextLoop := fun halive =>
      Nat.lt_irrefl _ (hsound.loopsBelow halive)
    refine ⟨hnext.begun_eq ▸ habsent.known, fun hwaits => ?_, fun run hran => ?_⟩
    · obtain ⟨e, hwaited, hsame⟩ := hnext.waits hfresh hwaits
      exact hsame ▸ habsent.waits hwaited
    · rcases hnext.runs hran with hran | ⟨-, e, hwaits, hsame⟩
      · exact habsent.unrun run hran
      · exact hsame ▸ habsent.waits hwaits

/-- A step beside the issues is a step of the traffic, or does nothing that shows. -/
theorem step_beside (h : Refines f registry) (hsound : Sound (f.shown registry))
    (hnext : Beside f.traffic owner ids t)
    (hidle : ∀ l, owner = some l → ∀ c ∈ f.issuing, c.loop ≠ l) :
    ∃ registry', (f.shown registry = ({ f with traffic := t } : Issuance κ).shown registry' ∨
        Step (f.shown registry) (({ f with traffic := t } : Issuance κ).shown registry')) ∧
      Refines { f with traffic := t } registry' := by
  have hwhole : _ → _ → Refines { f with traffic := t } registry :=
    h.beside hsound hnext hidle (fun _ => False) (by simp)
  -- only a loop that goes and a signal that takes its call change the registry
  cases hnext with
  | openLoop => exact ⟨registry, .inr (.openLoop _), hwhole (by simp [Relay.openLoop]) (by simp)⟩
  | dropLoop l =>
    have hdropped (listed : List (CallId × LoopId)) (id : CallId) (l' : LoopId) :
        (id, l') ∈ listed.filter (fun flight => !(f.relay.waitingOn l).contains flight.1) ↔
          (id, l') ∈ listed ∧ ¬ id ∈ f.relay.waitingOn l := by
      simp
    refine ⟨_, .inr (.dropLoop _ l), h.beside hsound (.dropLoop _ l) hidle _ (hdropped registry)
      (hdropped f.relay.inFlight) fun c hmem _ hwaiting => ?_⟩
    obtain ⟨e, hwaits, hsame⟩ := mem_waitingOn.mp hwaiting
    exact hidle l rfl c hmem (h.loop_eq hsound hmem hwaits hsame)
  | ignore id hunknown =>
    refine ⟨registry, .inl rfl, hwhole (fun id' l => ?_) (by simp)⟩
    have habsent := List.lookup_eq_none_iff.mp (show f.relay.inFlight.lookup id = none from hunknown)
    rw [mem_inFlight_take, not_false_eq_true, and_true, and_iff_left_iff_imp]
    rintro hlisted rfl
    simpa using habsent _ hlisted
  | take id payload l hknown =>
    have hlisted := mem_inFlight_of_take hknown
    refine ⟨_, .inr (.take _ id payload l (take_of_inFlight hsound (h.sees hlisted))),
      h.beside hsound (.take _ id payload l hknown) hidle (· = id)
        (fun id' l => mem_inFlight_take) (fun id' l => mem_inFlight_take) ?_⟩
    -- an issue that hides its call has kept it out of the registry, so no signal takes it
    rintro c hmem hhides rfl
    exact h.away hmem hhides.ne_calling l hlisted
  | fill c hmem hstage =>
    exact ⟨registry, .inr (.fill _ c hmem hstage), hwhole (by simp [modifyLoop]) (by simp)⟩
  | push c hmem hstage =>
    exact ⟨registry, .inr (.push _ c hmem hstage), hwhole (by simp [modifyLoop]) (by simp)⟩
  | unpark c hmem hstage =>
    exact ⟨registry, .inr (.unpark _ c hmem hstage), hwhole (by simp [modifyLoop]) (by simp)⟩
  | deliver l id claimed after hfound =>
    refine ⟨registry, .inr (.deliver _ l id claimed _ (claimNext?_inFlight hfound registry)),
      hwhole ?_ (by simp)⟩
    obtain ⟨_, _, _, _, _, rfl⟩ := claimNext?_eq_some hfound
    simp [modifyLoop]

/-- An issue that goes on is about the same call. -/
theorem ongoing_advance (h : Refines f registry) {c : Issuing κ} (hmem : c ∈ f.issuing)
    {progress : Progress} {c' : Issuing κ} (hmem' : c' ∈ f.advance c progress) :
    Ongoing f.traffic c'.toIssued := by
  have hongoing := h.ongoing hmem
  rcases Issuance.mem_advance.mp hmem' with rfl | ⟨hmem', -⟩
  · exact hongoing
  · exact h.ongoing hmem'

/-- An issue that goes on keeps its number, so it stays apart from another one. -/
theorem apart_advance {c : Issuing κ} (hmem : c ∈ f.issuing) {progress : Progress} {id : CallId}
    (hapart : ∀ c ∈ f.issuing, c.id ≠ id) : ∀ c' ∈ f.advance c progress, c'.id ≠ id := by
  intro c' hmem'
  rcases Issuance.mem_advance.mp hmem' with rfl | ⟨hmem', -⟩
  · exact hapart c hmem
  · exact hapart c' hmem'

/-- Issues that go on keep their numbers apart. -/
theorem once_advance (h : Refines f registry) {c : Issuing κ} {progress : Progress}
    {c₁ c₂ : Issuing κ} (hmem₁ : c₁ ∈ f.advance c progress) (hmem₂ : c₂ ∈ f.advance c progress)
    (hsame : c₁.id = c₂.id) : c₁ = c₂ := by
  rcases Issuance.mem_advance.mp hmem₁ with rfl | ⟨hmem₁, hother₁⟩ <;>
    rcases Issuance.mem_advance.mp hmem₂ with rfl | ⟨hmem₂, hother₂⟩
  · rfl
  · exact absurd hsame.symm hother₂
  · exact absurd hsame hother₁
  · exact h.once hmem₁ hmem₂ hsame

/-- An issue goes on, and nothing changes but which calls the registry lists. -/
theorem goesOn (h : Refines f registry) {c : Issuing κ} (hmem : c ∈ f.issuing) (progress : Progress)
    (listed : List (CallId × LoopId))
    (hflight : ∀ id l, (id, l) ∈ registry ↔ (id, l) ∈ listed ∨
      ∃ c' ∈ f.advance c progress, c'.Hides ∧ c'.id = id ∧ c'.loop = l)
    (haway : ∀ c' ∈ f.advance c progress, c'.progress ≠ .calling → ∀ l, (c'.id, l) ∉ listed) :
    Refines { f with traffic := f.shown listed, issuing := f.advance c progress } registry where
  flight := hflight _ _
  away := haway _
  once := h.once_advance
  ongoing := fun hmem' => ⟨(h.ongoing_advance hmem hmem').issued, (h.ongoing_advance hmem hmem').alive,
    (h.ongoing_advance hmem hmem').unrun⟩
  accepted := fun haccepted =>
    ⟨(h.accepted haccepted).1, apart_advance hmem (h.accepted haccepted).2⟩
  refused := fun hrefused =>
    ⟨(h.refused hrefused).known, (h.refused hrefused).waits, (h.refused hrefused).unrun⟩

/-- From outside, a call is issued when it is registered. -/
theorem register (h : Refines f registry) (hsound : Sound (f.shown registry)) {l : LoopId}
    (callback : κ) (halive : f.relay.Alive l) (hbound : f.traffic.begun + 1 < 2 ^ 64) :
    Refines { f with
      traffic := { f.traffic with
        relay := f.relay.enroll l callback
        begun := f.traffic.begun + 1
        issued := ⟨f.relay.nextCall, l, callback⟩ :: f.traffic.issued }
      issuing := ⟨⟨f.relay.nextCall, l, callback⟩, .registered⟩ :: f.issuing }
      ((f.relay.nextCall, l) :: registry) := by
  have hunused : ∀ {id : CallId}, id.toNat ≤ f.traffic.begun → id ≠ f.relay.nextCall :=
    hsound.ne_nextCall hbound
  have hothers : ∀ {c}, c ∈ f.issuing → c.id ≠ f.relay.nextCall := fun hmem =>
    hunused (hsound.issuedKnown (h.ongoing hmem).issued)
  exact {
    -- the issue keeps its call out of the registry, and it is seen there all the same
    flight := by
      intro id l'
      simp only [List.mem_cons, h.flight]
      constructor
      · rintro (hnew | hold | ⟨c, hmem, hhidden⟩)
        · obtain ⟨rfl, rfl⟩ := Prod.mk.inj hnew
          exact .inr ⟨_, .inl rfl, .inl rfl, rfl, rfl⟩
        · exact .inl hold
        · exact .inr ⟨c, .inr hmem, hhidden⟩
      · rintro (hold | ⟨c, rfl | hmem, hhides, rfl, rfl⟩)
        · exact .inr (.inl hold)
        · exact .inl rfl
        · exact .inr (.inr ⟨c, hmem, hhides, rfl, rfl⟩)
    away := by
      intro c hmem hprogress l' hlisted
      rcases List.mem_cons.mp hmem with rfl | hmem
      · obtain ⟨e, hwaits, hsame⟩ := hsound.flightWaits (h.sees hlisted)
        exact hunused (hsound.waitsKnown hwaits) hsame
      · exact h.away hmem hprogress l' hlisted
    once := by
      intro c c' hmem hmem' hsame
      rcases List.mem_cons.mp hmem with rfl | hmem <;> rcases List.mem_cons.mp hmem' with rfl | hmem'
      · rfl
      · exact absurd hsame.symm (hothers hmem')
      · exact absurd hsame (hothers hmem)
      · exact h.once hmem hmem' hsame
    ongoing := by
      intro c hmem
      rcases List.mem_cons.mp hmem with rfl | hmem
      · refine ⟨List.mem_cons_self .., (alive_begin (r := f.relay)).mpr halive, fun run hran => ?_⟩
        exact hunused (hsound.takenKnown (List.mem_map_of_mem (hsound.runTaken hran)))
      · have hongoing := h.ongoing hmem
        exact ⟨List.mem_cons_of_mem _ hongoing.issued, (alive_begin (r := f.relay)).mpr hongoing.alive,
          hongoing.unrun⟩
    accepted := by
      intro call hmem
      obtain ⟨hissued, hapart⟩ := h.accepted hmem
      refine ⟨List.mem_cons_of_mem _ hissued, fun c hmem => ?_⟩
      rcases List.mem_cons.mp hmem with rfl | hmem
      · exact (hunused (hsound.issuedKnown hissued)).symm
      · exact hapart c hmem
    refused := by
      intro call hmem
      have habsent := h.refused hmem
      refine ⟨Nat.le_succ_of_le habsent.known, fun hwaits => ?_, habsent.unrun⟩
      rcases (waitsOn_begin halive).mp hwaits with hwaits | ⟨-, rfl⟩
      · exact habsent.waits hwaits
      · exact (hunused habsent.known).symm }

/-- Putting a call in the registry does not show outside. -/
theorem insert (h : Refines f registry) {c : Issuing κ} (hmem : c ∈ f.issuing)
    (hprogress : c.progress = .registered) :
    Refines { f with
      traffic := { f.traffic with relay := f.relay.insert c.id c.loop }
      issuing := f.advance c .calling } registry := by
  refine h.goesOn hmem .calling ((c.id, c.loop) :: f.relay.inFlight) (fun id l => ?_) ?_
  · rw [h.flight]
    simp only [Issuance.mem_advance, List.mem_cons]
    constructor
    · rintro (hlisted | ⟨c', hmem', hhides, rfl, rfl⟩)
      · exact .inl (.inr hlisted)
      · by_cases hsame : c'.id = c.id
        -- the issue itself has kept its call out so far
        · obtain rfl := h.once hmem' hmem hsame
          exact .inl (.inl rfl)
        · exact .inr ⟨c', .inr ⟨hmem', hsame⟩, hhides, rfl, rfl⟩
    · rintro ((hnew | hlisted) | ⟨c', rfl | ⟨hmem', -⟩, hhides, rfl, rfl⟩)
      · obtain ⟨rfl, rfl⟩ := Prod.mk.inj hnew
        exact .inr ⟨c, hmem, .inl hprogress, rfl, rfl⟩
      · exact .inl hlisted
      · exact absurd rfl hhides.ne_calling
      · exact .inr ⟨c', hmem', hhides, rfl, rfl⟩
  · intro c' hmem' hnotCalling l hlisted
    rcases Issuance.mem_advance.mp hmem' with rfl | ⟨hmem', hother⟩
    · exact hnotCalling rfl
    · rcases List.mem_cons.mp hlisted with hnew | hlisted
      · exact hother (Prod.mk.inj hnew).1
      · exact h.away hmem' hnotCalling l hlisted

/-- An issue that returns leaves its call among those issued. -/
theorem accept (h : Refines f registry) {c : Issuing κ} (hmem : c ∈ f.issuing)
    (hprogress : c.progress = .calling) :
    Refines { f with
      issuing := f.others c.id
      accepted := c.toIssued :: f.accepted } registry where
  flight := by
    intro id l
    rw [h.flight]
    refine or_congr_right ⟨?_, ?_⟩
    -- an accepted call was visible already, so it hid no entry
    · rintro ⟨c', hmem', hhides, rfl, rfl⟩
      refine ⟨c', Issuance.mem_others.mpr ⟨hmem', fun hsame => ?_⟩, hhides, rfl, rfl⟩
      obtain rfl := h.once hmem' hmem hsame
      exact hhides.ne_calling hprogress
    · rintro ⟨c', hmem', hhidden⟩
      exact ⟨c', (Issuance.mem_others.mp hmem').1, hhidden⟩
  away := fun hmem' => h.away (Issuance.mem_others.mp hmem').1
  once := fun hmem₁ hmem₂ => h.once (Issuance.mem_others.mp hmem₁).1 (Issuance.mem_others.mp hmem₂).1
  ongoing := fun hmem' => h.ongoing (Issuance.mem_others.mp hmem').1
  accepted := by
    intro call haccepted
    rcases List.mem_cons.mp haccepted with rfl | haccepted
    · exact ⟨(h.ongoing hmem).issued, fun c' hmem' => (Issuance.mem_others.mp hmem').2⟩
    · have hold := h.accepted haccepted
      exact ⟨hold.1, fun c' hmem' => hold.2 c' (Issuance.mem_others.mp hmem').1⟩
  refused := h.refused

/-- Nor does taking it out again. -/
theorem forget (h : Refines f registry) (hsound : Sound (f.shown registry)) {c : Issuing κ}
    (hmem : c ∈ f.issuing) (hprogress : c.progress = .calling) :
    Refines { f with
      traffic := { f.traffic with relay := (f.relay.take c.id).2 }
      issuing := f.advance c (.forgotten (f.relay.take c.id).1.isSome) } registry := by
  refine h.goesOn hmem _ (f.relay.take c.id).2.inFlight (fun id l => ?_) ?_
  · rw [h.flight, mem_inFlight_take]
    simp only [Issuance.mem_advance]
    constructor
    · rintro (hlisted | ⟨c', hmem', hhides, rfl, rfl⟩)
      · by_cases hsame : id = c.id
        -- the call was still registered, and its issue keeps it out from now on
        · subst hsame
          exact .inr ⟨_, .inl rfl, .inr (congrArg Progress.forgotten (isSome_take hlisted)), rfl,
            h.loop_eq_of_mem hsound hmem (h.sees hlisted)⟩
        · exact .inl ⟨hlisted, hsame⟩
      · refine .inr ⟨c', .inr ⟨hmem', fun hsame => ?_⟩, hhides, rfl, rfl⟩
        obtain rfl := h.once hmem' hmem hsame
        exact hhides.ne_calling hprogress
    · rintro (⟨hlisted, -⟩ | ⟨c', rfl | ⟨hmem', -⟩, hhides, rfl, rfl⟩)
      · exact .inl hlisted
      · refine .inl ?_
        obtain hfound | hfound := hhides
        · cases hfound
        · obtain ⟨l', htaken⟩ := Option.isSome_iff_exists.mp (Progress.forgotten.inj hfound)
          have hlisted := mem_inFlight_of_take htaken
          rw [h.loop_eq_of_mem hsound hmem (h.sees hlisted)]
          exact hlisted
      · exact .inr ⟨c', hmem', hhides, rfl, rfl⟩
  · intro c' hmem' hnotCalling l hlisted
    obtain ⟨hlisted, hother⟩ := mem_inFlight_take.mp hlisted
    rcases Issuance.mem_advance.mp hmem' with rfl | ⟨hmem', -⟩
    · exact hother rfl
    · exact h.away hmem' hnotCalling l hlisted

/-- From outside, a call is taken back when it is taken off its loop. -/
theorem withdraw (h : Refines f registry) (hsound : Sound (f.shown registry)) {c : Issuing κ}
    {found : Bool} (hmem : c ∈ f.issuing) (hprogress : c.progress = .forgotten found) :
    Refines { f with
      traffic := { f.traffic with
        relay := f.relay.modifyLoop c.loop (·.withdraw c.id)
        issued := f.traffic.issued.filter (·.id != c.id) }
      issuing := f.others c.id
      refused := c.toIssued :: f.refused } (registry.filter (·.1 != c.id)) where
  flight := by
    intro id l
    have hkept : (id, l) ∈ registry.filter (·.1 != c.id) ↔ (id, l) ∈ registry ∧ id ≠ c.id := by simp
    rw [hkept, h.flight]
    constructor
    · rintro ⟨hlisted | ⟨c', hmem', hhides, rfl, rfl⟩, hother⟩
      · exact .inl hlisted
      · exact .inr ⟨c', Issuance.mem_others.mpr ⟨hmem', hother⟩, hhides, rfl, rfl⟩
    · rintro (hlisted | ⟨c', hmem', hhides, rfl, rfl⟩)
      -- the issue that is taken back has kept its call out to the end
      · refine ⟨.inl hlisted, ?_⟩
        rintro rfl
        exact h.away hmem (by simp [hprogress]) l hlisted
      · obtain ⟨hmem', hother⟩ := Issuance.mem_others.mp hmem'
        exact ⟨.inr ⟨c', hmem', hhides, rfl, rfl⟩, hother⟩
  away := fun hmem' => h.away (Issuance.mem_others.mp hmem').1
  once := fun hmem₁ hmem₂ => h.once (Issuance.mem_others.mp hmem₁).1 (Issuance.mem_others.mp hmem₂).1
  ongoing := by
    intro c' hmem'
    obtain ⟨hmem', hother⟩ := Issuance.mem_others.mp hmem'
    have hongoing := h.ongoing hmem'
    exact ⟨List.mem_filter.mpr ⟨hongoing.issued, by simpa using hother⟩,
      (alive_withdraw (r := f.relay)).mpr hongoing.alive, hongoing.unrun⟩
  accepted := by
    intro call haccepted
    obtain ⟨hissued, hapart⟩ := h.accepted haccepted
    exact ⟨List.mem_filter.mpr ⟨hissued, by simpa using (hapart c hmem).symm⟩,
      fun c' hmem' => hapart c' (Issuance.mem_others.mp hmem').1⟩
  refused := by
    intro call hrefused
    have hback : ∀ {l e}, (f.relay.modifyLoop c.loop (·.withdraw c.id)).WaitsOn l e →
        f.relay.WaitsOn l e ∧ (l = c.loop → e.id ≠ c.id) :=
      fun hwaits => (waitsOn_withdraw (r := f.relay)).mp hwaits
    rcases List.mem_cons.mp hrefused with rfl | hrefused
    · refine ⟨hsound.issuedKnown (h.ongoing hmem).issued, fun hwaits hsame => ?_,
        (h.ongoing hmem).unrun⟩
      obtain ⟨hwaits, hgone⟩ := hback hwaits
      exact hgone (h.loop_eq hsound hmem hwaits hsame).symm hsame
    · have habsent := h.refused hrefused
      exact ⟨habsent.known, fun hwaits => habsent.waits (hback hwaits).1, habsent.unrun⟩

end Refines

/-! ## Every order of steps -/

namespace Issuance

variable {f f' : Issuance κ} {ids : List CallId}

/-- No step forgets that a call was begun. -/
theorem Step.begun_le (hnext : Step f ids f') : f.traffic.begun ≤ f'.traffic.begun := by
  cases hnext with
  | beside owner ids t hnext hidle => exact Nat.le_of_eq hnext.begun_eq.symm
  | register l callback halive => exact Nat.le_succ _
  | _ => exact Nat.le_refl _

/-- One step is a step of the traffic underneath, or does nothing that shows there. -/
theorem Step.refines (hnext : Step f ids f') {registry : List (CallId × LoopId)}
    (h : Refines f registry) (hsound : Sound (f.shown registry))
    (hbound : f'.traffic.begun < 2 ^ 64) :
    ∃ registry', (f.shown registry = f'.shown registry' ∨
      Relay.Step (f.shown registry) (f'.shown registry')) ∧ Refines f' registry' := by
  cases hnext with
  | beside owner ids t hnext hidle => exact h.step_beside hsound hnext hidle
  | register l callback halive =>
    exact ⟨_, .inr (.issue (f.shown registry) l callback halive), h.register hsound callback halive
      hbound⟩
  | insert c hmem hprogress => exact ⟨registry, .inl rfl, h.insert hmem hprogress⟩
  | accept c hmem hprogress => exact ⟨registry, .inl rfl, h.accept hmem hprogress⟩
  | forget c hmem hprogress => exact ⟨registry, .inl rfl, h.forget hsound hmem hprogress⟩
  | withdraw c found hmem hprogress =>
    exact ⟨_, .inr (.fail (f.shown registry) c.toIssued (h.ongoing hmem).issued),
      h.withdraw hsound hmem hprogress⟩

/-- **A finer traffic.** From outside, issues that go step by step are issues in one step. -/
theorem Reachable.refines (hreach : Reachable f) (hbound : f.traffic.begun < 2 ^ 64) :
    ∃ registry, Relay.Reachable (f.shown registry) ∧ Refines f registry := by
  -- along the steps; each is a step of the relay underneath or none at all
  induction hreach with
  | fresh =>
    refine ⟨[], .fresh, ?_⟩
    exact {
      flight := by simp
      away := nofun
      once := nofun
      ongoing := nofun
      accepted := nofun
      refused := nofun }
  | step hreach hnext ih =>
    have hbound₀ := Nat.lt_of_le_of_lt hnext.begun_le hbound
    obtain ⟨registry, hunder, hrefines⟩ := ih hbound₀
    obtain ⟨registry', hshown, hrefines'⟩ :=
      hnext.refines hrefines (sound_of_reachable hunder hbound₀) hbound
    rcases hshown with hsame | hnext'
    · exact ⟨registry', hsame ▸ hunder, hrefines'⟩
    · exact ⟨registry', hunder.step hnext', hrefines'⟩

end Issuance

end GridBridge.Relay
