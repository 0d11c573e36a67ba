import GridBridge.Proofs.Managed.Apart
import GridBridge.Proofs.Session.Performs

/-!
# Errands: calls to be made on caches

An **`Errand`** is a call on a cache with everything that it takes to issue it. What it does to the stores
and what comes back of it can be said of a runtime (`deedIn`, `payloadIn`). Errands that are apart, each
performed at once and one after the other, come back with what each would come back with by itself
(**`inTurn_exactly`**).
-/

namespace GridBridge.Session

open Protocol Seam Bridge Managed Relay

variable {n : Nat} {s s' : Session} {rt rt' : Runtime} {thread : ThreadId} {store : StoreId}

/-! ## Calls to be issued -/

/-- A call on a cache, to be issued on a thread. Its completion comes back to a loop. -/
structure Errand where
  thread : ThreadId
  handle : Handle
  call : CacheCall
  loop : LoopId
  reaction : Reaction

/-- An errand with the number of its call. -/
structure Filed extends Errand where
  id : CallId

namespace Errand

def act (e : Errand) : Act :=
  .issue e.thread e.handle e.call.op (requestOf e.call) e.loop e.reaction

/-- The store of the cache that the handle leads to. -/
def storeIn (e : Errand) (rt : Runtime) : StoreId :=
  match rt.refs.get? e.handle.target with
  | some (.cache store) => store
  | _ => 0

def deedIn (e : Errand) (rt : Runtime) : Deed := ⟨e.storeIn rt, e.call⟩

/-- What a worker reports of the call if it carries it out in this runtime. -/
def payloadIn (e : Errand) (rt : Runtime) : Completion :=
  ⟨resultOk, (rt.grid.result (e.deedIn rt)).toUInt64⟩

end Errand

namespace Filed

def taskIn (f : Filed) (rt : Runtime) : Task :=
  ⟨f.call.op, f.storeIn rt, f.call.wire, .callback .relay, .ofNat64 f.id⟩

def signalIn (f : Filed) (rt : Runtime) : Signal :=
  ⟨.completion, .callback .relay, .ofNat64 f.id, f.payloadIn rt⟩

/-- The call with this payload, as its loop hands it over. -/
def handed (f : Filed) (payload : Completion) : Relay.Run Reaction :=
  ⟨f.id, f.loop, f.reaction, payload⟩

end Filed

/-! ## Errands that can be made -/

theorem Connects.calm {h : Handle} {ctx : Context} (hconnects : Connects h ctx thread rt store)
    (hcalm : rt.Calm rt') : Connects h ctx thread rt' store where
  cls := hconnects.cls
  found := hconnects.found
  clear := by
    rw [Runtime.pending?, hcalm.pending]
    exact hconnects.clear
  target := by
    rw [Refers, hcalm.refs]
    exact hconnects.target
  through := by
    rw [Refers, hcalm.refs]
    exact hconnects.through

theorem attach_calm (hcalm : rt.Calm rt')
    (hattaches : rt.attach thread = (.ok (), rt.attachThread thread)) :
    rt'.attach thread = (.ok (), rt'.attachThread thread) := by
  refine attach_of_fst (.trans ?_ (congrArg (·.1) hattaches))
  unfold Runtime.attach
  rw [hcalm.phase, hcalm.refuseAttach]
  split
  · rfl
  · split <;> rfl

/-- What an errand relies on in a session. -/
structure Errand.Feasible (e : Errand) (s : Session) : Prop where
  connects : ∃ ctx, contextOn e.thread s = some ctx ∧
    Connects e.handle ctx e.thread s.runtime (e.storeIn s.runtime)
  supported : e.call.op.supports .inOutAsync = true
  attaches : s.runtime.attach e.thread = (.ok (), s.runtime.attachThread e.thread)

theorem carries_requestOf (call : CacheCall) : Carries (requestOf call) call.wire where
  written := (exactly_requestOf call).bytes
  position := (exactly_requestOf call).position.trans (Codec.length_wire call.fields).symm
  small := call.small_wire

namespace Errand

variable {e : Errand}

theorem deedIn_calm (hcalm : rt.Calm rt') : e.deedIn rt' = e.deedIn rt := by
  unfold deedIn storeIn
  rw [hcalm.refs]

/-- What workers and users do in a bout takes nothing away that an errand relies on. -/
theorem Feasible.calm (h : e.Feasible s) (hcontext : s'.context = s.context)
    (hcalm : s.runtime.Calm s'.runtime) : e.Feasible s' := by
  obtain ⟨⟨ctx, hctx, hconnects⟩, hsupported, hattaches⟩ := h
  have hsame : e.storeIn s'.runtime = e.storeIn s.runtime := congrArg Deed.store (deedIn_calm hcalm)
  refine ⟨⟨ctx, ?_, hsame ▸ Connects.calm hconnects hcalm⟩, hsupported,
    attach_calm hcalm hattaches⟩
  unfold contextOn at hctx ⊢
  rwa [hcontext]

/-- **Performed at once**, an errand comes back with its result, and its store holds what it leaves. -/
theorem Feasible.performs (h : e.Feasible s) (huntapped : Untapped s)
    (hreceived : s.runtime.outbox = []) :
    ∃ s', (perform e.thread (e.handle.inOp (contextOn e.thread s) e.call.op
        (requestOf e.call))).run.run s =
          (.ok (.ok (s.runtime.grid.result (e.deedIn s.runtime)).toInt32), s') ∧
      s'.runtime.grid = s.runtime.grid.after (e.deedIn s.runtime) ∧
      s'.runtime.outbox = [] ∧ s.runtime.Calm s'.runtime ∧ Aside s s' := by
  obtain ⟨⟨ctx, hctx, hconnects⟩, hsupported, hattaches⟩ := h
  have hsupported : e.call.op.supports .inOp = true := by
    generalize e.call.op = op at hsupported
    cases op with
    | put | remove => rfl
    | size => cases hsupported
  -- the request is exactly as long as the operation asks
  have hbegins : e.call.wire = e.call.wire.take e.call.op.requestLength := by
    rw [← e.call.length_wire, List.take_length]
  have harrives : Way.inOp.Arrives e.handle ctx e.thread e.call.op (requestOf e.call) e.call.wire
      s.runtime _ _ :=
    arrives_result hconnects hsupported (carries_requestOf e.call) hattaches rfl
      (execute_of_take s.runtime.grid (e.storeIn s.runtime) hbegins)
  obtain ⟨s', hran, hruntime, haside⟩ := performs_inOp huntapped hreceived hctx harrives
  rw [attachThread_eq] at hruntime
  refine ⟨s', hran, ?_, ?_, ?_, haside⟩
  · rw [hruntime]
    rfl
  · rw [hruntime]
    exact hreceived
  · rw [hruntime]
    exact ⟨rfl, rfl, rfl, rfl⟩

end Errand

/-- Performs errands one after the other, each at once. -/
def inTurn : List Errand → Step (List (Except BridgeError Int32))
  | [] => return []
  | e :: rest => do
    let reply ← perform e.thread
      (e.handle.inOp (contextOn e.thread (← get)) e.call.op (requestOf e.call))
    return reply :: (← inTurn rest)

/-- **Performed in turn**, errands that are apart come back with what each would come back with by
itself. -/
theorem inTurn_exactly (errands : List Errand) (hfeasible : ∀ e ∈ errands, e.Feasible s)
    (hapart : (errands.map (·.deedIn s.runtime)).Pairwise Deed.Apart) (huntapped : Untapped s)
    (hreceived : s.runtime.outbox = []) :
    ∃ s', (inTurn errands).run.run s = (.ok (errands.map fun e =>
        .ok (s.runtime.grid.result (e.deedIn s.runtime)).toInt32), s') ∧
      s'.runtime.grid = s.runtime.grid.afterAll (errands.map (·.deedIn s.runtime)) := by
  induction errands generalizing s with
  | nil => exact ⟨s, rfl, rfl⟩
  | cons e rest ih =>
    obtain ⟨hfirst, hothers⟩ := List.forall_mem_cons.mp hfeasible
    obtain ⟨hbeside, hapart⟩ := List.pairwise_cons.mp hapart
    obtain ⟨s₁, hran, hgrid, hreceived₁, hcalm, haside⟩ := hfirst.performs huntapped hreceived
    have hsame (e' : Errand) : e'.deedIn s₁.runtime = e'.deedIn s.runtime := Errand.deedIn_calm hcalm
    have hcontext : s₁.context = s.context := by rw [haside.same]
    obtain ⟨s', hran', hgrid'⟩ := ih (fun e' hmem => (hothers e' hmem).calm hcontext hcalm)
      (by simpa only [hsame] using hapart) (haside.untapped huntapped) hreceived₁
    -- none of the others sees what the first one left
    have hresults : ∀ e' ∈ rest, s₁.runtime.grid.result (e'.deedIn s₁.runtime) =
        s.runtime.grid.result (e'.deedIn s.runtime) := by
      intro e' hmem
      rw [hsame, hgrid]
      exact Deed.Apart.result_after (symm (hbeside _ (List.mem_map_of_mem hmem))) _
    refine ⟨s', ?_, ?_⟩
    · unfold inTurn
      rw [run_get_bind, run_bind_of_ok hran, run_bind_of_ok hran', List.map_cons]
      have hreplies := List.map_congr_left fun e' hmem =>
        congrArg (fun result => (.ok result.toInt32 : Except BridgeError Int32)) (hresults e' hmem)
      rw [hreplies]
      rfl
    · rw [hgrid', hgrid]
      simp only [hsame]
      rfl

end GridBridge.Session
