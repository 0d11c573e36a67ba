import GridBridge.Proofs.Bridge.Frame
import GridBridge.Proofs.Session.Balance
import GridBridge.Proofs.Session.Exact

/-!
# What a session is left with by an act that fails

A script that sends no completion changes nothing around the runtime but what is written down
(**`Aside`**, `partly_silent`). So the frames of the operations are frames of a session: an act that
fails on a live context leaves a little of what it has done in the grid at most (**`Leftover`**), and
beside that nothing but what is used up (**`fails_run`**).
-/

namespace GridBridge.Session

open Protocol Seam Bridge Managed Relay

variable {α : Type} {thread : ThreadId} {s s' s'' : Session} {kept : Multiset Ref} {act : Act}
  {ctx : Context} {n : Nat}

/-! ## Playing scripts that send nothing -/

/-- Nothing around the runtime has changed but what is written down: the transcript, and the faults that
the error callback was told of. -/
structure Aside (s s' : Session) : Prop where
  same : s' = { s with
    runtime := s'.runtime
    tap := { s.tap with lines := s'.tap.lines }
    reported := s'.reported }
  lines : s.tap.lines <:+ s'.tap.lines
  reported : s.reported <+: s'.reported

namespace Aside

/-- The runtime itself may be any other. -/
theorem of_runtime (s : Session) (rt : Runtime) : Aside s { s with runtime := rt } :=
  ⟨rfl, List.suffix_refl _, List.prefix_refl _⟩

/-- What is written down later comes behind. -/
theorem trans (h : Aside s s') (h' : Aside s' s'') : Aside s s'' where
  same := by
    rw [h'.same, h.same]
  lines := h.lines.trans h'.lines
  reported := h.reported.trans h'.reported

/-- What stands between scripts and runtime is as it was. -/
theorem untapped (h : Aside s s') (hs : Untapped s) : Untapped s' := by
  rw [h.same]
  exact ⟨hs.substitutes, hs.holding⟩

/-- A line of the transcript is written down. -/
theorem trace (s : Session) (line : String) : Aside s { s with tap := s.tap.trace line } := by
  unfold Tap.trace
  split
  · exact ⟨rfl, List.suffix_cons .., List.prefix_refl _⟩
  · exact of_runtime s s.runtime

/-- A fault that is told of is noted. -/
theorem tell (s : Session) (fault : ManagedFault) :
    Aside s { s with reported := s.reported ++ [fault] } :=
  ⟨rfl, List.suffix_refl _, List.prefix_append ..⟩

end Aside

/-- Without completions to be received, an answer changes the runtime only. -/
theorem partly_answerDirect_silent {request : Call} (htakes : (silent thread).takes s.runtime request) :
    Partly (answerDirect thread request) (fun reply s' =>
      (silent thread).answers s.runtime request reply s'.runtime ∧ Aside s s') s := by
  refine ends_bind (ends_get ?_)
  cases hrun : (Managed.answer thread request).run.run s.runtime with
  | mk outcome rt =>
    refine ends_bind (ends_set ?_)
    cases outcome with
    | error cause => exact ends_throw
    | ok reply =>
      refine ends_pure fun hinRange => ?_
      -- receiving makes no reference, so numbers were in range before it
      have hroom : rt.refs.next ≤ 2 ^ 64 := by
        have hrefs := (calm_receiveAll { s with runtime := rt }).refs
        unfold InRange at hinRange
        rw [hrefs] at hinRange
        exact hinRange
      have hquiet : rt.outbox = [] := htakes reply rt hrun hroom
      -- with nothing handed out there is nothing to receive
      have hreceived : receiveAll { s with runtime := rt } = { s with runtime := rt } := by
        unfold receiveAll
        rw [hquiet, List.foldl_nil, ← hquiet]
      rw [hreceived]
      exact ⟨⟨hroom, hrun⟩, .of_runtime s rt⟩

/-- **A script that sends nothing** is answered as the runtime answers it, and nothing is received. -/
theorem partly_silent {script : Script α} {Q : α → Runtime → Prop}
    (hscript : script.wp (silent thread) Q s.runtime) (hs : Untapped s) :
    Partly (play thread script) (fun value s' => Q value s'.runtime ∧ Aside s s') s := by
  -- along the script; what the calls change beside the runtime is the trace and what was told
  induction script generalizing s with
  | done value => exact partly_pure ⟨hscript, .of_runtime s s.runtime⟩
  | call request next ih =>
    refine partly_bind (fun reply => grows_play (next reply)) (partly_answer hs ?_)
    refine (partly_answerDirect_silent hscript.1).mono fun reply s' ⟨hanswers, haside⟩ line => ?_
    have htraced : Aside s { s' with tap := s'.tap.trace line } := haside.trans (.trace s' line)
    have hrest := hscript.2 reply _ hanswers
    refine (ih reply (s := { s' with tap := s'.tap.trace line }) hrest (htraced.untapped hs)).mono ?_
    exact fun value s'' ⟨hvalue, haside'⟩ => ⟨hvalue, htraced.trans haside'⟩
  | report fault next ih =>
    refine partly_bind (fun _ => grows_play next) (partly_modify ?_)
    split
    · refine (ih (s := { s with reported := s.reported ++ [fault] }) hscript
        ⟨hs.substitutes, hs.holding⟩).mono ?_
      exact fun value s' ⟨hvalue, haside⟩ => ⟨hvalue, (Aside.tell s fault).trans haside⟩
    · exact ih hscript hs

/-! ## Operations that fail -/

/-- If the step ends in an error of the bridge, then as the postcondition says. -/
def Fails (x : Step (Except BridgeError α)) (E : BridgeError → Session → Prop) (s : Session) : Prop :=
  Partly x (fun outcome s' => ∀ e, outcome = .error e → E e s') s

variable {E : BridgeError → Session → Prop} {operation : Operation α} {F : BridgeError → Runtime → Prop}

/-- A value is no failure. -/
theorem fails_ok {value : α} : Fails (pure (.ok value)) E s := partly_pure nofun

/-- What comes after a step that failed is not run. -/
theorem fails_bind {x : Step (Except BridgeError α)} {β : Type}
    {f : Except BridgeError α → Step (Except BridgeError β)} (hf : ∀ outcome, Grows (f outcome))
    (h : Fails x (fun e s' => Fails (f (.error e)) E s') s)
    (hok : ∀ value s', Fails (f (.ok value)) E s') : Fails (x >>= f) E s := by
  refine partly_bind hf (h.mono ?_)
  rintro (e | value) s' hfailed
  · exact hfailed e rfl
  · exact hok value s'

/-- An operation fails as its contract says. -/
theorem fails_perform (hop : Operation.wp (silent thread) operation (fun _ _ => True) F s.runtime)
    (hs : Untapped s) :
    Fails (perform thread operation) (fun e s' => F e s'.runtime ∧ Aside s s') s := by
  refine (partly_silent hop hs).mono ?_
  rintro _ s' ⟨hended, haside⟩ e rfl
  exact ⟨hended, haside⟩

/-- An error is passed on. -/
theorem fails_next {x : Step (Except BridgeError α)} {β : Type}
    {f : Except BridgeError α → Step (Except BridgeError β)} (hf : ∀ outcome, Grows (f outcome))
    (herror : ∀ e, f (.error e) = pure (.error e)) (h : Fails x E s)
    (hok : ∀ value s', Fails (f (.ok value)) E s') : Fails (x >>= f) E s := by
  refine fails_bind hf (h.mono fun outcome s' hfails e hfailed => ?_) hok
  show Fails (f (.error e)) E s'
  rw [herror]
  refine partly_pure ?_
  rintro _ ⟨⟩
  exact hfails e hfailed

/-- What ends in a value does not fail, whatever comes before. -/
theorem fails_done {x : Step α} {β : Type} {value : β} :
    Fails (do let _ ← x; return .ok value) E s :=
  partly_bind (fun _ => grows_pure) fun _ _ _ _ => fails_ok

/-- So does an opening. -/
theorem fails_openOn (hop : Operation.wp (silent thread) operation (fun _ _ => True) F s.runtime)
    (hs : Untapped s) :
    Fails (openOn thread operation) (fun e s' => F e s'.runtime ∧ Aside s s') s := by
  refine fails_next (fun outcome => ?_) (fun _ => rfl) (fails_perform hop hs) fun _ _ => fails_done
  cases outcome with
  | ok _ => exact grows_bind (grows_modify fun _ => rfl) fun _ => grows_pure
  | error _ => exact grows_pure

/-- So does a start. -/
theorem fails_startOn {args : LaunchArgs} {hasErrorCallback : Bool}
    (hop : Operation.wp (silent thread) (Context.start args) (fun _ _ => True) F s.runtime)
    (hs : Untapped s) :
    Fails (startOn thread args hasErrorCallback) (fun e s' => F e s'.runtime ∧ Aside s s') s := by
  refine fails_next grows_install (fun _ => rfl) (fails_perform hop hs) fun value s' => ?_
  refine partly_bind (fun _ => grows_bind (grows_modify fun _ => rfl) fun _ => grows_pure) ?_
  exact fun _ _ _ _ => fails_done

/-- What an act makes of the outcome of its operation. -/
theorem fails_map {x : Step (Except BridgeError α)} {f : α → Option Handle} (h : Fails x E s) :
    Fails (do return (← x).map f) E s := by
  refine partly_bind (fun _ => grows_pure) (h.mono fun outcome s' hfailed => partly_pure ?_)
  intro e hmapped
  cases outcome with
  | ok value => cases hmapped
  | error e' =>
    cases hmapped
    exact hfailed e rfl

/-! ## What is left in the runtime -/

/-- The thread that an act makes its calls on. -/
def Act.thread? : Act → Option ThreadId
  | .start thread .. | .attach thread | .openInstance thread .. | .findInstance thread _
  | .openCache thread .. | .put thread .. | .remove thread .. | .size thread _ | .callIn thread ..
  | .callInOut thread .. | .callAsync thread .. | .issue thread .. | .dropHandle thread _
  | .dropContext thread => some thread
  | .switch _ | .openLoop | .dropLoop _ | .deliver _ | .work => none

/-- What is left in the grid by an act that fails: nothing, unless an instance or a cache was opened and
only the reference to it could not be made durable. -/
def Leftover (rt : Runtime) (grid : Grid) : Act → BridgeError → Prop
  | .openInstance _ configPath name, .promotion _ =>
    Passes (Instance.wireName name) ∧ rt.grid.isRunning (Instance.wireName name) = false ∧
      grid = rt.grid.start (Instance.wireName name) configPath
  | .openCache _ source name, .promotion _ =>
    ∃ instanceName i, rt.refs.get? source.handle.target = some (.processor instanceName) ∧
      rt.grid.instance? instanceName = some i ∧ grid = (rt.grid.openCache instanceName i name).2
  | _, _ => grid = rt.grid

/-- Errors of any other kind leave nothing in the grid. -/
theorem leftover_nothing (rt : Runtime) {e : BridgeError} (hother : Unpromoted e) :
    Leftover rt rt.grid act e := by
  unfold Leftover
  split
  -- only these two acts leave something, and only where a reference was not made durable
  · exact absurd rfl (hother _)
  · exact absurd rfl (hother _)
  · rfl

/-- What an act that failed has left in the runtime: its leftover in the grid, and what it has used
up. -/
structure Remains (act : Act) (e : BridgeError) (rt rt' : Runtime) : Prop where
  leftover : Leftover rt rt'.grid act e
  touched : ∃ thread, act.thread? = some thread ∧ Touched thread { rt with grid := rt'.grid } rt'

/-- The leftover, and what was used up beside it. -/
theorem Remains.of_touched {rt rt' : Runtime} {e : BridgeError} {grid : Grid}
    (hleftover : Leftover rt grid act e) (hon : act.thread? = some thread)
    (htouched : Touched thread { rt with grid } rt') : Remains act e rt rt' := by
  have hsame : rt'.grid = grid := htouched.grid
  refine ⟨hsame ▸ hleftover, thread, hon, ?_⟩
  rw [hsame]
  exact htouched

/-! ## Acts -/

/-- A session with a context has one for each thread, with all methods found. -/
theorem Balanced.exists_contextOn (h : Balanced s kept) (hlive : s.context.isSome = true)
    (thread : ThreadId) : ∃ ctx, contextOn thread s = some ctx ∧ Found ctx.descriptors := by
  obtain ⟨ctx, hctx⟩ := Option.isSome_iff_exists.mp hlive
  obtain ⟨classes, hbound, _⟩ := (h.up ctx hctx).bound
  unfold contextOn
  split
  · exact ⟨ctx, hctx, hbound.methods trivial⟩
  · exact ⟨{ ctx with describeFaults := false }, by rw [hctx]; rfl, hbound.methods trivial⟩

/-- The session in which the call of an act is counted, if it issues one. -/
def Act.counted (s : Session) : Act → Session
  | .issue .. => { s with relay := { s.relay with nextCall := s.relay.nextCall + 1 } }
  | _ => s

/-- How many calls an act issues. -/
def Act.calls : Act → Nat
  | .issue .. => 1
  | _ => 0

/-- Between acts an operation can begin. -/
theorem Balanced.underway (h : Balanced s kept) (hquiet : s.runtime.outbox = []) (thread : ThreadId) :
    Underway thread s.runtime s.runtime where
  touched := .refl thread s.runtime
  sound := h.sound
  clear := h.clear thread
  quiet := hquiet

/-- An error other than of a reference that could not be made durable comes after nothing was done. -/
theorem remains_nothing (hon : act.thread? = some thread) (e : BridgeError) (rt' : Runtime)
    (hother : Unpromoted e) (htouched : Touched thread s.runtime rt') : Remains act e s.runtime rt' :=
  .of_touched (leftover_nothing s.runtime hother) hon htouched

/-- How an act fails: with its leftover, and beside that with nothing changed. -/
abbrev FailsBare (act : Act) (x : Step (Except BridgeError α)) (s : Session) : Prop :=
  Fails x (fun e s' => Remains act e s.runtime s'.runtime ∧ Aside (act.counted s) s') s

section Acts

variable {handle : Handle} {op : Opcode} {input : Codec.Writer} (h : Balanced s kept)
include h

/-- An act that plays an operation and is done. -/
theorem Balanced.fails_played {operation : Operation α} {f : α → Option Handle}
    (huncounted : act.counted s = s)
    (hop : Operation.wp (silent thread) operation (fun _ _ => True) (Remains act · s.runtime ·)
      s.runtime) :
    FailsBare act (do return (← perform thread operation).map f) s := by
  unfold FailsBare
  rw [huncounted]
  exact fails_map (fails_perform hop h.untapped)

/-- An act that plays an operation to open something. -/
theorem Balanced.fails_opening {operation : Operation α} {f : α → Handle}
    (huncounted : act.counted s = s)
    (hop : Operation.wp (silent thread) operation (fun _ _ => True) (Remains act · s.runtime ·)
      s.runtime) :
    FailsBare act (Act.opening f (openOn thread operation)) s := by
  unfold FailsBare
  rw [huncounted]
  exact fails_map (fails_openOn hop h.untapped)

variable (hlive : s.context.isSome = true)
include hlive

/-- An act on the context of its thread. -/
theorem Balanced.fails_onContext {step : Context → Step Outcome}
    (hstep : ∀ ctx, Found ctx.descriptors → FailsBare act (step ctx) s) :
    FailsBare act (Act.onContext thread step) s := by
  obtain ⟨ctx, hctx, hmethods⟩ := h.exists_contextOn hlive thread
  refine partly_get ?_
  rw [hctx]
  exact hstep ctx hmethods

/-- An act that calls an operation with the context of its thread. -/
theorem Balanced.fails_calling {operation : Option Context → Operation α}
    (huncounted : act.counted s = s)
    (hop : ∀ ctx, Found ctx.descriptors →
      Operation.wp (silent thread) (operation (some ctx)) (fun _ _ => True)
        (Remains act · s.runtime ·) s.runtime) :
    FailsBare act (Act.calling thread operation) s := by
  obtain ⟨ctx, hctx, hmethods⟩ := h.exists_contextOn hlive thread
  refine partly_get (h.fails_played huncounted ?_)
  rw [hctx]
  exact hop ctx hmethods

variable (hquiet : s.runtime.outbox = [])
include hquiet

/-- Registering a call, making it and taking it back again leaves its number counted. -/
theorem Balanced.fails_issueFrom (hnumbered : Numbered n s.relay)
    (hroom : n + 1 < 2 ^ 64) {l : LoopId} {reaction : Reaction} :
    FailsBare (.issue thread handle op input l reaction)
      (issueFrom thread handle op input l reaction) s := by
  unfold FailsBare issueFrom
  refine partly_bind (fun id => grows_get fun s => grows_bind (grows_play _) grows_withdraw) ?_
  refine partly_modifyGet (partly_get ?_)
  refine fails_bind grows_withdraw ?_ fun _ _ => fails_ok
  obtain ⟨ctx, hctx, hmethods⟩ := h.exists_contextOn hlive thread
  -- registering the call does not change the context
  have hbegun : contextOn thread { s with relay := (s.relay.begin l reaction).2 } = some ctx := hctx
  rw [hbegun]
  have hop : Operation.wp (silent thread)
      (handle.inOutOpAsync (some ctx) op input .relay s.relay.nextCall) (fun _ _ => True)
      (Remains (.issue thread handle op input l reaction) · s.runtime ·) s.runtime :=
    Handle.wp_inOutOpAsync_underway hmethods (h.underway hquiet thread) (remains_nothing rfl)
      fun _ => trivial
  refine (fails_perform (s := { s with relay := (s.relay.begin l reaction).2 }) hop
    ⟨h.untapped.substitutes, h.untapped.holding⟩).mono fun outcome s' hfails e hfailed => ?_
  -- taken back, the call leaves only its number counted
  obtain ⟨hremains, haside⟩ := hfails e hfailed
  refine partly_bind (fun _ => grows_pure) (partly_modify (partly_pure ?_))
  rintro _ ⟨⟩
  refine ⟨hremains, ?_, haside.lines, haside.reported⟩
  show { s' with relay := s'.relay.withdraw l s.relay.nextCall } = _
  have hrelay : s'.relay = (s.relay.begin l reaction).2 := by rw [haside.same]
  rw [hrelay, hnumbered.withdraw_begin hroom, haside.same]
  rfl

/-- **An act that fails on a live context** leaves its leftover, and changes nothing beside that. -/
theorem Balanced.fails_run (hnumbered : Numbered n s.relay) (hroom : n + act.calls < 2 ^ 64)
    (hneeds : ∀ handle, act.needs = some handle → handle.target ∈ kept) :
    FailsBare act act.run s := by
  have hunderway := h.underway hquiet
  cases act with
  | switch | dropHandle | dropContext | openLoop | dropLoop | deliver | work => exact fails_done
  | start thread args hasErrorCallback =>
    obtain ⟨ctx, hctx⟩ := Option.isSome_iff_exists.mp hlive
    -- the runtime is up already, so a second start is refused
    have hbegun : s.runtime.phase ≠ .idle := by
      rw [(h.up ctx hctx).phase]
      exact nofun
    refine fails_map (fails_startOn (Context.wp_start_refused hbegun hquiet ?_) h.untapped)
    exact fun e hother => remains_nothing rfl e _ hother (.refl thread _)
  | attach thread =>
    refine h.fails_onContext hlive fun ctx hmethods => h.fails_played rfl ?_
    refine Context.wp_attach_underway (hunderway thread) (fun _ _ => trivial) ?_
    exact fun _ e hother => remains_nothing rfl e _ hother (.refl thread _)
  | openInstance thread configPath name =>
    refine h.fails_onContext hlive fun ctx hmethods => h.fails_opening rfl ?_
    refine Instance.wp_start_underway hmethods (hunderway thread) (fun _ _ _ => trivial)
      (remains_nothing rfl) ?_
    exact fun hpasses hstopped fault rt' htouched => .of_touched ⟨hpasses, hstopped, rfl⟩ rfl htouched
  | findInstance thread name =>
    refine h.fails_onContext hlive fun ctx hmethods => h.fails_opening rfl ?_
    refine Instance.wp_find_underway hmethods (hunderway thread) (fun _ _ _ => trivial)
      (fun _ => remains_nothing rfl) ?_
    exact fun _ fault rt' htouched => .of_touched rfl rfl htouched
  | openCache thread source name =>
    obtain ⟨ctx, hctx, hmethods⟩ := h.exists_contextOn hlive thread
    obtain ⟨ctx', hctx'⟩ := Option.isSome_iff_exists.mp hlive
    -- the handle is one of those kept, so it leads to an object
    have hmem : source.handle.target ∈ s.runtime.refs.tokens .globalRef := by
      rw [(h.up ctx' hctx').globals]
      exact Multiset.mem_add.mpr (.inl (hneeds source.handle rfl))
    obtain ⟨object, hget, hmarks⟩ := h.sound.marks_of_mem hmem
    refine partly_get ?_
    rw [hctx]
    refine h.fails_opening rfl (Instance.wp_cache_underway hmethods (hunderway thread) hmarks
      (fun _ _ _ => trivial) (remains_nothing rfl) ?_)
    intro instanceName i hself hfound fault rt' htouched
    exact .of_touched ⟨instanceName, i, by rw [hget, hself], hfound, rfl⟩ rfl htouched
  | put thread cache key value =>
    show FailsBare _ (Act.calling thread (cache.put · key value)) s
    refine h.fails_calling hlive rfl fun _ hmethods => ?_
    exact Handle.wp_inOp_underway hmethods (hunderway thread) (remains_nothing rfl) fun _ _ => trivial
  | remove thread cache key =>
    show FailsBare _ (Act.calling thread (cache.remove · key)) s
    refine h.fails_calling hlive rfl fun _ hmethods => Operation.wp_bind.mpr ?_
    exact Handle.wp_inOp_underway hmethods (hunderway thread) (remains_nothing rfl) fun _ _ => trivial
  | size thread cache =>
    show FailsBare _ (Act.calling thread cache.size) s
    refine h.fails_calling hlive rfl fun _ hmethods => ?_
    exact Handle.wp_inOutOp_underway hmethods (hunderway thread) (remains_nothing rfl) fun _ _ =>
      trivial
  | callIn thread handle op input =>
    show FailsBare _ (Act.calling thread (handle.inOp · op input)) s
    refine h.fails_calling hlive rfl fun _ hmethods => ?_
    exact Handle.wp_inOp_underway hmethods (hunderway thread) (remains_nothing rfl) fun _ _ => trivial
  | callInOut thread handle op input =>
    show FailsBare _ (Act.calling thread (handle.inOutOp · op input)) s
    refine h.fails_calling hlive rfl fun _ hmethods => ?_
    exact Handle.wp_inOutOp_underway hmethods (hunderway thread) (remains_nothing rfl) fun _ _ =>
      trivial
  | callAsync thread handle op input callback data =>
    show FailsBare _ (Act.calling thread (handle.inOutOpAsync · op input callback data)) s
    refine h.fails_calling hlive rfl fun _ hmethods => ?_
    exact Handle.wp_inOutOpAsync_underway hmethods (hunderway thread) (remains_nothing rfl)
      fun _ => trivial
  | issue thread handle op input loop reaction =>
    exact fails_map (h.fails_issueFrom hlive hquiet hnumbered hroom)

end Acts

end GridBridge.Session
