import GridBridge.Proofs.Relay.Conduct
import GridBridge.Proofs.Session.Play
import GridBridge.Session.Asynchronous

/-!
# What the relay hears of a step

Whatever the managed side is asked, all that it does to the relay is signals: completions that the
runtime hands out, and those that a substitute was given (**`Hears`**). So a script that is played, a
handle that is given back and a worker's turn leave a relay that some signals were made to. A reaction
issues a call at most, too, and what it does is a list of deeds (**`did_react`**).
-/

namespace GridBridge.Session

open Protocol Seam Bridge Managed Relay

variable {α β : Type} {thread : ThreadId} {r : Relay Reaction} {s s' : Session}

/-- A session keeps its relay where `relayAccess` finds it. -/
theorem faithful_relayAccess : Faithful relayAccess fun s : Session => s.relay where
  read _ := rfl
  write relay s := ⟨{ s with relay }, rfl, rfl⟩

/-- The relay is what these signals, or others, have made of `r`. -/
def Heard (r : Relay Reaction) (s : Session) : Prop := ∃ signals, s.relay = r.signalAll signals

/-- All that the step does to the relay is signals, however it ends. -/
def Hears (x : Step α) : Prop := ∀ r, Keeps (Heard r) x

/-- Before anything has happened no signal was made. -/
theorem heard_refl (s : Session) : Heard s.relay s := ⟨[], rfl⟩

/-- What a step has done to the relay that it found. -/
theorem Hears.leaves {x : Step α} (h : Hears x) (s : Session) : Leaves x (Heard s.relay) s :=
  h s.relay s (heard_refl s)

/-- Signals only move calls from those in flight to those ready. -/
theorem Heard.disturbed {own : Bool} {l : LoopId} (h : Heard r s) :
    Disturbed Reaction.following own l 0 r s.relay := by
  obtain ⟨signals, hsame⟩ := h
  rw [hsame]
  exact .signalAll signals

/-! ## Rules -/

/-- A value is given without a signal. -/
theorem hears_pure (value : α) : Hears (pure value) := fun _ => keeps_pure

/-- Signals after signals. -/
theorem hears_bind {x : Step α} {f : α → Step β} (hx : Hears x) (hf : ∀ value, Hears (f value)) :
    Hears (x >>= f) :=
  fun r => keeps_bind (hx r) fun value => hf value r

/-- To look at the session makes no signal. -/
theorem hears_get {f : Session → Step β} (hf : ∀ s, Hears (f s)) : Hears (get >>= f) :=
  fun r => keeps_get fun s => hf s r

/-- A change beside the relay. -/
theorem hears_beside {f : Session → Session} (hf : ∀ s, (f s).relay = s.relay) : Hears (modify f) :=
  fun _ => keeps_modify fun s ⟨signals, hsame⟩ => ⟨signals, (hf s).trans hsame⟩

/-! ## The managed side -/

/-- One signal more is a signal, and an answer is beside the relay. -/
theorem tolerant_heard (r : Relay Reaction) : Tolerant (fun _ => True) (Heard r) where
  beside h _ hrelay := h.imp fun _ hsame => hrelay.trans hsame
  signalled id completion h := by
    obtain ⟨signals, hsame⟩ := h
    refine ⟨signals ++ [(id, completion)], ?_⟩
    rw [signalAll_append, ← hsame]
    rfl
  answered _ _ _ h := h
  looksUp _ := trivial

/-- Whatever the answer, the relay only hears signals. -/
theorem hears_answer (request : Call) : Hears (answer thread request) :=
  fun r => (tolerant_heard r).keeps_answer trivial

/-- The error callback is none of the relay's. -/
theorem hears_tellFault (fault : ManagedFault) : Hears (tellFault fault) := by
  refine hears_beside fun s => ?_
  split <;> rfl

/-- Whatever a script asks, the relay only hears signals. -/
theorem hears_play (script : Script α) : Hears (play thread script) :=
  fun r => (tolerant_heard r).keeps_play (Script.Makes.any script)

/-- A handle that is given back is counted beside the relay. -/
theorem hears_releaseOn (h : Handle) : Hears (releaseOn thread h) := by
  refine hears_get fun s => hears_bind (hears_play _) fun given => ?_
  split
  · exact hears_beside fun _ => rfl
  · exact hears_pure _

/-- So is the handle of a cache. -/
theorem hears_releaseCache (c : Cache) : Hears (releaseCache c) := by
  refine hears_get fun s => ?_
  split
  · exact hears_releaseOn c.handle
  · exact hears_pure _

/-! ## Workers -/

/-- What a task completes is received as soon as it has run. -/
theorem hears_workOnce : Hears workOnce := by
  refine hears_get fun s => ?_
  split
  · exact hears_pure _
  · exact hears_bind (fun r => keeps_modify fun s h => (tolerant_heard r).receiveAll h) fun _ =>
      hears_pure _

/-- A worker that goes on, by induction on its turns. -/
theorem hears_workUntil (holds : Session → Bool) (limit : Nat) : Hears (workUntil holds limit) := by
  induction limit with
  | zero => exact hears_pure _
  | succ limit ih =>
    refine hears_get fun s => ?_
    split
    · exact hears_pure _
    · refine hears_bind hears_workOnce fun worked => ?_
      split
      · exact ih
      · exact hears_pure _

/-! ## Reactions -/

/-- The relay is what deeds have made of `r`, which cost so much: signals, and calls whose reactions keep
no cache. -/
def Did (r : Relay Reaction) (cost : Nat) (s : Session) : Prop :=
  ∃ deeds, s.relay = r.applyAll deeds ∧ (∀ deed ∈ deeds, deed.Issues (·.cache? = none)) ∧
    total (Deed.cost Reaction.following) deeds ≤ cost

/-- Nothing costs nothing. -/
theorem did_refl (s : Session) (cost : Nat) : Did s.relay cost s := ⟨[], rfl, nofun, Nat.zero_le cost⟩

/-- What deeds cost adds up. -/
theorem Did.trans {cost cost' : Nat} (h : Did r cost s) (h' : Did s.relay cost' s') :
    Did r (cost + cost') s' := by
  obtain ⟨deeds, hrelay, hissues, hcost⟩ := h
  obtain ⟨deeds', hrelay', hissues', hcost'⟩ := h'
  refine ⟨deeds ++ deeds', ?_, fun deed hmem => ?_, ?_⟩
  · rw [applyAll_append, hrelay', hrelay]
  · exact (List.mem_append.mp hmem).elim (hissues deed) (hissues' deed)
  · rw [total_append]
    omega

/-- Deeds are what the owner of a loop may do beside its turns. -/
theorem Did.disturbed {cost : Nat} {l : LoopId} (h : Did r cost s) :
    Disturbed Reaction.following true l cost r s.relay := by
  obtain ⟨deeds, hrelay, hissues, hcost⟩ := h
  rw [hrelay]
  exact (Disturbed.deeds hissues).mono hcost

/-- Signals cost nothing. -/
theorem Heard.did (h : Heard r s) : Did r 0 s := by
  obtain ⟨signals, hsame⟩ := h
  refine ⟨signals.map fun signal => .signal signal.1 signal.2, ?_, fun deed hmem => ?_, ?_⟩
  · rw [applyAll_signals, hsame]
  · obtain ⟨signal, -, rfl⟩ := List.mem_map.mp hmem
    trivial
  -- each signal costs nothing, by induction on their list
  · clear hsame
    induction signals with
    | nil => exact Nat.le_refl 0
    | cons signal rest ih => simpa [total, Deed.cost] using ih

/-- An issue counts for its call and for what the reaction to that leads to. -/
theorem did_issueFrom {h : Handle} {op : Opcode} {input : Codec.Writer} {l : LoopId}
    {reaction : Reaction} (hnone : reaction.cache? = none) (s : Session) :
    Leaves (issueFrom thread h op input l reaction) (Did s.relay (reaction.following + 1)) s := by
  -- the deed is an issue, however the managed side answers and whatever it signals
  have hdid (meanwhile : List (CallId × Completion)) (refused : Bool) (s' : Session)
      (hsame : s'.relay = (Deed.issue l reaction meanwhile refused).apply s.relay) :
      Did s.relay (reaction.following + 1) s' := by
    refine ⟨[.issue l reaction meanwhile refused], hsame, fun deed hmem => ?_, Nat.le_refl _⟩
    rw [List.mem_singleton.mp hmem]
    exact hnone
  unfold issueFrom
  refine Comes.leaves (comes_next (x := modifyGet _) rfl (comes_get (comes_bind ?_)))
  refine ((hears_play _).leaves _).comes.mono ?_ fun e s' ⟨meanwhile, hsame⟩ => ?_
  · rintro outcome s' ⟨meanwhile, hsame⟩
    cases outcome with
    | ok _ => exact comes_pure (hdid meanwhile false s' hsame)
    | error e =>
      refine comes_bind (comes_modify (comes_pure (hdid meanwhile true _ ?_)))
      show s'.relay.withdraw l _ = _
      rw [hsame]
      rfl
  · exact hdid meanwhile false s' hsame

/-- A reaction notes what was delivered, and may issue one more call. -/
theorem did_carryOut (reaction : Reaction) (completion : Completion) (s : Session) :
    Leaves (carryOut reaction completion) (Did s.relay reaction.following) s := by
  refine leaves_next (x := noteDelivery _ _) rfl ?_
  cases reaction with
  | note tag => exact leaves_pure (did_refl _ _)
  | chain tag cache l put =>
    have hnone : (Reaction.note put.tag).cache? = none := rfl
    refine leaves_bind (did_issueFrom hnone _) fun outcome s' h => ?_
    cases outcome with
    | ok _ => exact leaves_pure h
    -- that the call was refused is noted beside the relay
    | error e => exact leaves_modify h

/-- To let a reaction's cache go is no deed. -/
theorem hears_letGo (reaction : Reaction) : Hears (letGo reaction) := by
  unfold letGo
  split
  · exact hears_releaseCache _
  · exact hears_pure _

/-- A reaction does no more to the relay than it was counted for. -/
theorem did_react (reaction : Reaction) (completion : Completion) (s : Session) :
    Leaves (react reaction completion) (Did s.relay reaction.following) s := by
  refine leaves_finally (leaves_mono (did_carryOut reaction completion s) fun s' h => ?_)
  exact leaves_mono ((hears_letGo reaction).leaves s') fun s'' hheard => h.trans hheard.did

end GridBridge.Session
