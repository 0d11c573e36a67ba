import GridBridge.Proofs.Session.Calls

/-!
# Calls that a session performs

What the loopback runtime plays, a session that nothing stands in for performs, and changes nothing else
(**`yields_play`**). So a call that a session has issued is queued exactly as the runtime queues it
(**`issued_exactly`**), and one that it waits for comes back as it does there (`performs_inOp`).
-/

namespace GridBridge.Session

open Protocol Seam Bridge Managed Relay
open Seam.Script (Event)

variable {α β : Type} {thread : ThreadId} {rt rt' : Runtime} {s s' : Session}

/-! ## Scripts -/

section Untapped

variable (huntapped : Untapped s)
include huntapped

/-- The runtime answers, and the call is written down. -/
theorem yields_answered {request : Call} {reply : request.Reply} {Q : request.Reply → Session → Prop}
    (hanswered : (Managed.answer thread request).run.run s.runtime = (.ok reply, rt))
    (hquiet : rt.outbox = [])
    (hQ : ∀ line, Q reply { s with runtime := rt, tap := s.tap.trace line }) :
    Yields (answer thread request) Q s := by
  have hreceived : receiveAll { s with runtime := rt } = { s with runtime := rt } := by
    unfold receiveAll
    rw [hquiet, List.foldl_nil, ← hquiet]
  have hdirect : Yields (answerDirect thread request)
      (fun value s' => value = reply ∧ s' = { s with runtime := rt }) s := by
    refine yields_bind (yields_get ?_)
    rw [hanswered]
    refine yields_bind (yields_set (yields_pure ⟨rfl, ?_⟩))
    exact hreceived
  -- with nothing held back, the answer comes straight from the runtime
  have hheld : Yields (answerOrHold thread request)
      (fun value s' => value = reply ∧ s' = { s with runtime := rt }) s := by
    unfold answerOrHold
    split
    · refine yields_bind (yields_get ?_)
      rw [huntapped.holding]
      exact hdirect
    · exact hdirect
  refine yields_bind (yields_bind (yields_get ?_))
  rw [huntapped.substitutes]
  have hsame : { s with tap := { s.tap with substitutes := [] } } = s := by
    rw [← huntapped.substitutes]
  refine yields_bind (yields_set ?_)
  rw [hsame]
  refine yields_bind (hheld.mono ?_)
  rintro _ _ ⟨rfl, rfl⟩
  exact yields_pure (yields_bind (yields_modify (yields_pure (hQ _))))

/-- **What the runtime plays, a session plays.** Around the runtime it changes nothing but what it writes
down. -/
theorem yields_play {script : Script α} {events : List Event} {value : α}
    (hplays : Plays thread s.runtime script events value rt') (hreceived : s.runtime.outbox = []) :
    Yields (play thread script)
      (fun value' s' => value' = value ∧ s'.runtime = rt' ∧ Aside s s') s := by
  -- the runtime is an index of the play, and the session changes along with it
  generalize hhere : s.runtime = rt at hplays
  induction hplays generalizing s with
  | done rt value => exact yields_pure ⟨rfl, hhere, .of_runtime s s.runtime⟩
  | @call request next rt rt₁ rt' reply events value hanswered hquiet hrest ih =>
    subst hhere
    have hreceived' : rt₁.outbox = [] := hquiet.trans hreceived
    refine yields_bind (yields_answered huntapped hanswered hreceived' fun line => ?_)
    have haside : Aside s { s with runtime := rt₁, tap := s.tap.trace line } :=
      (Aside.of_runtime s rt₁).trans (.trace { s with runtime := rt₁ } line)
    refine (ih (haside.untapped huntapped) hreceived' rfl).mono ?_
    rintro value' s' ⟨hsame, hended, haside'⟩
    exact ⟨hsame, hended, haside.trans haside'⟩
  | report hrest ih =>
    refine yields_bind (yields_modify ?_)
    split
    · refine (ih (s := { s with reported := s.reported ++ [_] })
        ⟨huntapped.substitutes, huntapped.holding⟩ hreceived hhere).mono ?_
      rintro value' s' ⟨hsame, hended, haside⟩
      exact ⟨hsame, hended, (Aside.tell s _).trans haside⟩
    · exact ih huntapped hreceived hhere

/-- A session that performs an operation ends as the runtime does. -/
theorem of_performed {operation : Operation α} {events : List Event}
    {outcome outcome' : Except BridgeError α}
    (hplays : Plays thread s.runtime operation.run events outcome rt')
    (hreceived : s.runtime.outbox = [])
    (hperformed : (perform thread operation).run.run s = (.ok outcome', s')) :
    outcome' = outcome ∧ s'.runtime = rt' ∧ Aside s s' := by
  obtain ⟨value, s'', hran, hended⟩ := yields_play huntapped hplays hreceived
  cases hperformed.symm.trans hran
  exact hended

end Untapped

/-! ## Calls on handles -/

/-- A thread that may attach does. -/
theorem attach_of_fst (hattaches : (rt.attach thread).1 = .ok ()) :
    rt.attach thread = (.ok (), rt.attachThread thread) :=
  Prod.ext hattaches (attach_eq_ok (Prod.ext hattaches rfl))

variable {way : Way} {handle : Handle} {ctx : Context} {op : Opcode} {input : Codec.Writer}
  {bytes : List UInt8} {store : StoreId} {l : LoopId} {reaction : Reaction}

theorem play_bind {script : Script α} {f : α → Script β} :
    play thread (script >>= f) = play thread script >>= fun value => play thread (f value) := by
  induction script with
  | done value => rfl
  | call request next ih =>
    show (answer thread request >>= fun reply => play thread (next reply >>= f)) =
      (answer thread request >>= fun reply => play thread (next reply)) >>= _
    rw [bind_assoc]
    exact congrArg _ (funext ih)
  | report fault next ih =>
    show (tellFault fault >>= fun _ => play thread (next >>= f)) =
      (tellFault fault >>= fun _ => play thread next) >>= _
    rw [bind_assoc]
    exact congrArg _ (funext fun _ => ih)

/-- An operation whose value is made of that of another one. -/
theorem perform_map (operation : Operation α) (f : α → β) :
    perform thread (operation >>= fun value => pure (f value)) =
      perform thread operation >>= fun outcome => pure (outcome.map f) := by
  unfold perform
  rw [ExceptT.run_bind, play_bind]
  refine congrArg _ (funext fun outcome => ?_)
  cases outcome <;> rfl

section Performed

variable (huntapped : Untapped s) (hreceived : s.runtime.outbox = [])
include huntapped hreceived

/-- A call that ends in a value is one that is made. -/
theorem made_of_performed {given : Given} (hperformed :
      (perform thread (way.perform handle (contextOn thread s) op input)).run.run s =
        (.ok (.ok given), s')) :
    (op.targetClass = handle.cls ∧ op.supports way.shape = true) ∧
      ∃ ctx, contextOn thread s = some ctx ∧
        s.runtime.attach thread = (.ok (), s.runtime.attachThread thread) := by
  -- a call that is not made ends in an error
  have hrefused {e : BridgeError} {events : List Event} {rt' : Runtime}
      (hplays : Plays thread s.runtime (way.perform handle (contextOn thread s) op input).run events
          (.error e) rt') : False := by
    obtain ⟨hsame, -⟩ := of_performed huntapped hplays hreceived hperformed
    cases hsame
  have hstopped {e : BridgeError}
      (hstops : (way.perform handle (contextOn thread s) op input).run = .done (.error e)) : False := by
    have hplays : Plays thread s.runtime (way.perform handle (contextOn thread s) op input).run []
        (.error e) s.runtime := hstops ▸ .done s.runtime _
    exact hrefused hplays
  by_cases htakes : op.targetClass = handle.cls ∧ op.supports way.shape = true
  · refine ⟨htakes, ?_⟩
    have hchecked := check_taken htakes.1 htakes.2
    cases hctx : contextOn thread s with
    | none => exact (hstopped (hctx ▸ way.perform_torn hchecked)).elim
    | some ctx =>
      refine ⟨ctx, rfl, attach_of_fst ?_⟩
      cases hattaches : (s.runtime.attach thread).1 with
      | ok _ => rfl
      | error code =>
        exact (hrefused (hctx ▸ way.plays_refused hchecked (attach_eq_error hattaches))).elim
  · obtain ⟨violation, hchecked⟩ := check_refused htakes
    exact (hstopped (way.perform_unsupported hchecked)).elim

/-- **A call that waits** and is made comes back, and the session is as the runtime leaves it. -/
theorem performs_inOp (hctx : contextOn thread s = some ctx) {value : Int32}
    (harrives : Way.inOp.Arrives handle ctx thread op input bytes s.runtime (.ok (.word32 value)) rt') :
    ∃ s', (perform thread (handle.inOp (contextOn thread s) op input)).run.run s =
        (.ok (.ok value), s') ∧ s'.runtime = rt' ∧ Aside s s' := by
  obtain ⟨reply, events, hplays⟩ := harrives
  obtain ⟨outcome, s', hran, rfl, hended⟩ := yields_play huntapped hplays hreceived
  have hmade : (perform thread (Way.inOp.perform handle (some ctx) op input)).run.run s = _ := hran
  rw [Way.perform, perform_map, ← hctx] at hmade
  obtain ⟨outcome, s₁, hperformed, hsame⟩ := run_bind_eq_ok hmade
  cases outcome with
  | ok value' =>
    cases hsame
    exact ⟨s', hperformed, hended⟩
  | error e => cases hsame

/-! ## Issues -/

omit huntapped hreceived in
/-- An issue that succeeds is a call that was queued. -/
theorem performed_of_issued (hissued :
      (issueFrom thread handle op input l reaction).run.run s = (.ok (.ok ()), s')) :
    (perform thread ((Way.inOutOpAsync .relay s.relay.nextCall).perform handle (contextOn thread s) op
        input)).run.run { s with relay := (s.relay.begin l reaction).2 } = (.ok (.ok .queued), s') := by
  unfold issueFrom at hissued
  obtain ⟨id, s₁, hbegan, hrest⟩ := run_bind_eq_ok hissued
  cases hbegan
  rw [run_get_bind] at hrest
  obtain ⟨outcome, s₂, hperformed, hended⟩ := run_bind_eq_ok hrest
  cases outcome with
  | ok _ =>
    cases hended
    rw [Way.perform, perform_map]
    exact run_bind_of_ok hperformed
  | error e => cases hended

theorem made_of_issued (hissued :
      (issueFrom thread handle op input l reaction).run.run s = (.ok (.ok ()), s')) :
    (op.targetClass = handle.cls ∧ op.supports .inOutAsync = true) ∧
      ∃ ctx, contextOn thread s = some ctx ∧
        s.runtime.attach thread = (.ok (), s.runtime.attachThread thread) :=
  made_of_performed (s := { s with relay := (s.relay.begin l reaction).2 })
    ⟨huntapped.substitutes, huntapped.holding⟩ hreceived (performed_of_issued hissued)

/-- **What an issue comes to**: the call is in the relay, its task in the queue, and around the runtime
nothing else has changed but what was written down. -/
theorem issued_exactly (hconnects : Connects handle ctx thread s.runtime store)
    (hsupported : op.supports .inOutAsync = true) (hcarries : Carries input bytes)
    (hctx : contextOn thread s = some ctx)
    (hattaches : s.runtime.attach thread = (.ok (), s.runtime.attachThread thread))
    (hissued : (issueFrom thread handle op input l reaction).run.run s = (.ok (.ok ()), s')) :
    s'.runtime = { s.runtime.attachThread thread with
        tasks := (s.runtime.attachThread thread).tasks ++
          [⟨op, store, bytes, .callback .relay, .ofNat64 s.relay.nextCall⟩] } ∧
      Aside { s with relay := (s.relay.begin l reaction).2 } s' := by
  have hperformed := performed_of_issued hissued
  rw [hctx] at hperformed
  have harrives : (Way.inOutOpAsync .relay s.relay.nextCall).Arrives handle ctx thread op input bytes
      s.runtime (.ok .queued) _ := arrives_queued hconnects hsupported hcarries hattaches rfl
  obtain ⟨reply, events, hplays⟩ := harrives
  exact (of_performed (s := { s with relay := (s.relay.begin l reaction).2 })
    ⟨huntapped.substitutes, huntapped.holding⟩ hplays hreceived hperformed).2

end Performed

end GridBridge.Session
