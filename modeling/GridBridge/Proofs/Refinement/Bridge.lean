import GridBridge.Proofs.Refinement.Matches
import GridBridge.Proofs.Session.Effects
import GridBridge.Proofs.Session.Frame

/-!
# The bridge refines the plain machine

The operations of the plain machine are carried out on a session: **`Handles.play`** opens, looks up,
calls and issues through the bridge, and lets a worker run one of the queued tasks. A session stands
for a plain machine (**`Simulates`**) if it is in balance, its runtime shows a desk, and the desk with
the open handles matches what the plain machine has.

One operation of the bridge is then one of the plain machine (**`Simulates.step`**), and so are many
in a row (**`Simulates.run`**). For each operation two facts meet: that it ends and leaves the session
in balance, and what it does to the desk if it ends.
-/

namespace GridBridge.Refinement

open Protocol Seam Bridge Managed Relay Session

/-! ## Operations on the bridge -/

/-- A worker runs the task in some place of the queue. -/
def takeTask? (rt : Runtime) (index : Nat) : Option Runtime :=
  rt.tasks[index]?.map fun task => { rt with tasks := rt.tasks.eraseIdx index }.runTask task

/-- The calls of the relay that these signals complete. -/
def completedBy (signals : List Signal) : List (CallId × Completion) :=
  signals.filterMap fun signal =>
    if signal.entry = .completion ∧ signal.callback = .callback .relay then
      signal.data.number?.map (·, signal.completion)
    else none

/-- Runs the task in some place, and receives what it completes. -/
def workAt (index : Nat) : Step Reply := do
  match takeTask? (← get).runtime index with
  | none => return .missing
  | some runtime =>
    modify fun s => receiveAll { s with runtime }
    return .executed (completedBy runtime.outbox)

/-- What a call comes to. -/
def replyTo {α : Type} (f : α → Reply) : Except BridgeError α → Reply
  | .ok value => f value
  | .error _ => .refused

/-- Issues an update of a cache. -/
def issueUpdate (thread : ThreadId) (c : Cache) (loop : LoopId) (reaction : Reaction) :
    Update → Step (Except BridgeError Unit)
  | .put key value =>
    issueFrom thread c.handle .put (Cache.putRequest key value) loop reaction
  | .remove key => issueFrom thread c.handle .remove (Cache.keyRequest key) loop reaction

namespace Handles

/-- What comes of opening an instance. -/
def withInstance (handles : Handles) : Except BridgeError Instance → Reply × Handles
  | .ok i => (.opened, { handles with instances := i :: handles.instances })
  | .error _ => (.refused, handles)

/-- What comes of opening a cache. -/
def withCache (handles : Handles) : Except BridgeError Cache → Reply × Handles
  | .ok c => (.opened, { handles with caches := c :: handles.caches })
  | .error _ => (.refused, handles)

/-- Does something with an open cache. -/
def onCache (handles : Handles) (target : Nat) (f : Cache → Step Reply) : Step (Reply × Handles) :=
  match handles.caches[target]? with
  | some c => do return (← f c, handles)
  | none => return (.missing, handles)

/-- Opens an instance in the context as the thread uses it. -/
def openInstance (handles : Handles) (thread : ThreadId) (opening : Context → Operation Instance) :
    Step (Reply × Handles) := do
  match contextOn thread (← get) with
  | some ctx => return handles.withInstance (← openOn thread (opening ctx))
  | none => return (.missing, handles)

/-- Opens a cache of an open instance. -/
def openCache (handles : Handles) (thread : ThreadId) (source : Nat) (name : Option String) :
    Step (Reply × Handles) :=
  match handles.instances[source]? with
  | some i => do
    return handles.withCache (← openOn thread (i.cache (contextOn thread (← get)) name))
  | none => return (.missing, handles)

/-- One operation through the bridge. -/
def play (handles : Handles) : Op → Step (Reply × Handles)
  | .start thread path name => handles.openInstance thread (Instance.start · path name)
  | .find thread name => handles.openInstance thread (Instance.find · name)
  | .cache thread source name => handles.openCache thread source name
  | .put thread target key value => handles.onCache target fun c => do
    return replyTo .put (← perform thread (c.put (contextOn thread (← get)) key value))
  | .remove thread target key => handles.onCache target fun c => do
    return replyTo .removed (← perform thread (c.remove (contextOn thread (← get)) key))
  | .size thread target => handles.onCache target fun c => do
    return replyTo (.size ·.toNat) (← perform thread (c.size (contextOn thread (← get))))
  | .issue thread target update loop reaction => handles.onCache target fun c => do
    let id := (← get).relay.nextCall
    return replyTo (fun _ => .issued id) (← issueUpdate thread c loop reaction update)
  | .execute index => do return (← workAt index, handles)

/-- Operations in a row, and their replies. -/
def playAll : List Op → Handles → Step (List Reply × Handles)
  | [], handles => return ([], handles)
  | op :: rest, handles => do
    let (reply, handles) ← handles.play op
    let (replies, handles) ← playAll rest handles
    return (reply :: replies, handles)

end Handles

/-! ## Numbers only go up -/

/-- A task that is run leaves references, exceptions and the phase alone. -/
theorem calm_takeTask {rt rt' : Runtime} {index : Nat} (h : takeTask? rt index = some rt') :
    rt.Calm rt' := by
  obtain ⟨task, _, rfl⟩ := Option.map_eq_some_iff.mp h
  -- the queue is shorter, and nothing of this is in the queue
  obtain ⟨hrefs, hpending, hphase, hattach⟩ :=
    calm_runTask { rt with tasks := rt.tasks.eraseIdx index } task
  exact ⟨hrefs, hpending, hphase, hattach⟩

/-- To run a task makes no reference. -/
theorem grows_workAt (index : Nat) : Grows (workAt index) := by
  intro n s h
  refine leaves_get ?_
  cases htask : takeTask? s.runtime index with
  | none => exact leaves_pure h
  | some runtime =>
    have hrefs := (calm_receiveAll { s with runtime }).refs.trans (calm_takeTask htask).refs
    exact leaves_bind (leaves_modify (Reached.of_refs h hrefs)) fun _ _ h => leaves_pure h

/-- To open an instance only counts references up. -/
theorem grows_openInstance (handles : Handles) (thread : ThreadId)
    (opening : Context → Operation Instance) : Grows (handles.openInstance thread opening) := by
  refine grows_get fun s => ?_
  split
  · exact grows_bind grows_openOn fun _ => grows_pure
  · exact grows_pure

/-- So does opening a cache. -/
theorem grows_openCache (handles : Handles) (thread : ThreadId) (source : Nat)
    (name : Option String) : Grows (handles.openCache thread source name) := by
  unfold Handles.openCache
  split
  · exact grows_get fun _ => grows_bind grows_openOn fun _ => grows_pure
  · exact grows_pure

/-- So does whatever is done with a cache. -/
theorem grows_onCache {handles : Handles} {target : Nat} {f : Cache → Step Reply}
    (hf : ∀ c, Grows (f c)) : Grows (handles.onCache target f) := by
  unfold Handles.onCache
  split
  · exact grows_bind (hf _) fun _ => grows_pure
  · exact grows_pure

/-- So does each operation. -/
theorem grows_op (handles : Handles) (op : Op) : Grows (handles.play op) := by
  cases op with
  | start thread path name => exact grows_openInstance handles thread _
  | find thread name => exact grows_openInstance handles thread _
  | cache thread source name => exact grows_openCache handles thread source name
  | put thread target key value =>
    exact grows_onCache fun _ => grows_get fun _ => grows_bind (grows_play _) fun _ => grows_pure
  | remove thread target key =>
    exact grows_onCache fun _ => grows_get fun _ => grows_bind (grows_play _) fun _ => grows_pure
  | size thread target =>
    exact grows_onCache fun _ => grows_get fun _ => grows_bind (grows_play _) fun _ => grows_pure
  | issue thread target update loop reaction =>
    refine grows_onCache fun _ => grows_get fun _ => grows_bind ?_ fun _ => grows_pure
    cases update <;> exact grows_issueFrom
  | execute index => exact grows_bind (grows_workAt index) fun _ => grows_pure

/-- So do many in a row. -/
theorem grows_playAll (ops : List Op) (handles : Handles) : Grows (Handles.playAll ops handles) := by
  induction ops generalizing handles with
  | nil => exact grows_pure
  | cons op rest ih =>
    exact grows_bind (grows_op handles op) fun _ => grows_bind (ih _) fun _ => grows_pure

/-! ## Sessions that are ready for operations -/

variable {α : Type} {files : Files.FileSystem} {thread : ThreadId} {kept : Multiset Ref}
  {grid grid' : Grid} {tasks tasks' : List Managed.Task} {owned owned' : List (Ref × Object)}
  {s s' : Session} {handles : Handles} {p : Plain}

/-- The session is in balance and has a context, and its runtime holds what the desk says. -/
structure Ready (files : Files.FileSystem) (kept : Multiset Ref) (grid : Grid)
    (tasks : List Managed.Task) (owned : List (Ref × Object)) (s : Session) : Prop where
  balanced : Balanced s kept
  context : s.context.isSome = true
  shows : ∀ thread, Shows files thread { grid, tasks, owned } s.runtime

namespace Ready

/-- A session that is ready has a context for each thread, with all methods found. -/
theorem exists_context (h : Ready files kept grid tasks owned s) (thread : ThreadId) :
    ∃ ctx, contextOn thread s = some ctx ∧ Found ctx.descriptors :=
  h.balanced.exists_contextOn h.context thread

/-- The handles are the same, whatever else has changed. -/
theorem after (h : Ready files kept grid tasks owned s) (hquiet : Quiet kept s s')
    (hshows : Shows files thread { grid := grid', tasks := tasks', owned } s'.runtime) :
    Ready files kept grid' tasks' owned s' where
  balanced := hquiet.balanced
  context := by rw [hquiet.context]; exact h.context
  shows := fun other => hshows.elsewhere rfl (hquiet.balanced.clear other)

/-- A worker has run, and what it completed was received. -/
theorem after_work (h : Ready files kept grid tasks owned s) {rt : Runtime}
    (hcalm : s.runtime.Calm rt)
    (hshows : Shows files thread { grid := grid', tasks := tasks', owned } { rt with outbox := [] }) :
    Ready files kept grid' tasks' owned (receiveAll { s with runtime := rt }) := by
  obtain ⟨hruntime, hcontext, hsubstitutes, hholding⟩ := receiveAll_spec { s with runtime := rt }
  have hreceived := calm_receiveAll { s with runtime := rt }
  rw [← hruntime] at hshows
  exact h.after (h.balanced.quiet_of_steady ⟨hcontext, hsubstitutes, hholding⟩
    (hreceived.refs.trans hcalm.refs) (hreceived.pending.trans hcalm.pending)
    (hreceived.phase.trans hcalm.phase)) hshows

/-- There is one handle more. -/
theorem of_gained {handle : Handle} (hgained : Gained kept s handle s')
    (hshows : Shows files thread { grid := grid', tasks, owned := owned' } s'.runtime) :
    Ready files (handle.target ::ₘ kept) grid' tasks owned' s' where
  balanced := hgained.balanced
  context := by
    obtain ⟨ctx, _, hctx⟩ := hgained.counted
    rw [hctx]
    rfl
  shows := fun other => hshows.elsewhere rfl (hgained.balanced.clear other)

end Ready

/-- What an opening comes to on a desk, when it succeeds on a condition. -/
inductive OpeningOn (files : Files.FileSystem) (kept : Multiset Ref) (grid : Grid)
    (tasks : List Managed.Task) (owned : List (Ref × Object)) (may : Prop) (handle : α → Handle)
    (cls : TargetClass) (object : Object) (grid' : Grid) : Except BridgeError α → Session → Prop where
  | opened {value : α} {s' : Session} (hallowed : may) (hsame : (handle value).cls = cls)
      (hready : Ready files ((handle value).target ::ₘ kept) grid' tasks
        (((handle value).target, object) :: owned) s') :
      OpeningOn files kept grid tasks owned may handle cls object grid' (.ok value) s'
  | refused {e : BridgeError} {s' : Session} (hdenied : ¬ may)
      (hready : Ready files kept grid tasks owned s') :
      OpeningOn files kept grid tasks owned may handle cls object grid' (.error e) s'

/-- An opening that ends, and of which it is known what it does if it ends. -/
theorem Ready.within_openOn (h : Ready files kept grid tasks owned s) {operation : Operation α}
    {handle : α → Handle} {may : Prop} {cls : TargetClass} {object : Object}
    (htotal : Within (openOn thread operation) (Opening kept s handle) s)
    (hexact : Operation.wp (loopback thread) operation
      (fun value rt' => may ∧ (handle value).cls = cls ∧ Shows files thread
        { grid := grid', tasks, owned := ((handle value).target, object) :: owned } rt')
      (fun _ rt' => ¬ may ∧ Retains files thread { grid, tasks, owned } rt') s.runtime) :
    Within (openOn thread operation) (fun outcome s' =>
      OpeningOn files kept grid tasks owned may handle cls object grid' outcome s' ∧
        s'.relay.nextCall = s.relay.nextCall) s := by
  refine (htotal.and_partly (partly_openOn hexact h.balanced.untapped)).mono ?_
  rintro (e | value) s' ⟨hended, hmet, hnext⟩
  · obtain ⟨hdenied, hretains⟩ := hmet
    exact ⟨.refused hdenied (h.after hended (hretains.shows (hended.balanced.clear thread))), hnext⟩
  · obtain ⟨hallowed, hcls, hshows⟩ := hmet
    exact ⟨.opened hallowed hcls (.of_gained hended hshows), hnext⟩

/-- A call that gives a certain value and leaves a certain desk. -/
theorem Ready.within_perform (h : Ready files kept grid tasks owned s) {operation : Operation α}
    {value : α} (htotal : Within (perform thread operation) (fun _ s' => Quiet kept s s') s)
    (hexact : Operation.wp (loopback thread) operation
      (fun value' rt' => value' = value ∧
        Shows files thread { grid := grid', tasks := tasks', owned } rt')
      (fun _ _ => False) s.runtime) :
    Within (perform thread operation) (fun outcome s' => outcome = .ok value ∧
      Ready files kept grid' tasks' owned s' ∧ s'.relay.nextCall = s.relay.nextCall) s := by
  refine (htotal.and_partly (partly_perform hexact h.balanced.untapped)).mono ?_
  rintro (e | value') s' ⟨hquiet, hmet, hbeside⟩
  · exact hmet.elim
  · obtain ⟨rfl, hshows⟩ := hmet
    exact ⟨rfl, h.after hquiet hshows, hbeside.next⟩

/-! ## The relation -/

/-- The session with its open handles stands for the plain machine. -/
structure Represents (files : Files.FileSystem) (kept : Multiset Ref) (grid : Grid)
    (tasks : List Managed.Task) (owned : List (Ref × Object)) (s : Session) (handles : Handles)
    (p : Plain) : Prop where
  ready : Ready files kept grid tasks owned s
  data : Matches kept grid tasks owned handles p
  next : s.relay.nextCall = p.next

/-- The session with its open handles stands for the plain machine, whatever it holds. -/
def Simulates (files : Files.FileSystem) (s : Session) (handles : Handles) (p : Plain) : Prop :=
  ∃ kept grid tasks owned, Represents files kept grid tasks owned s handles p

/-- What is replied is what the plain machine replies, and what is left stands for what it becomes. -/
def Follows {ρ : Type} (files : Files.FileSystem) (next : ρ × Plain) (result : ρ × Handles)
    (s : Session) : Prop :=
  result.1 = next.1 ∧ Simulates files s result.2 next.2

/-- An update is issued as the call that it amounts to. -/
theorem issueUpdate_eq (thread : ThreadId) (c : Cache) (loop : LoopId) (reaction : Reaction)
    (update : Update) : issueUpdate thread c loop reaction update =
      issueFrom thread c.handle update.call.op (requestOf update.call) loop reaction := by
  cases update <;> rfl

/-- A completion for a call of the relay reaches it as it is. -/
theorem completedBy_one (id : CallId) (completion : Completion) :
    completedBy [⟨.completion, .callback .relay, .ofNat64 id, completion⟩] = [(id, completion)] := by
  show [(id.toInt64.toUInt64, completion)] = _
  rw [UInt64.toUInt64_toInt64]

namespace Represents

variable (h : Represents files kept grid tasks owned s handles p)
include h

/-! ### Openings -/

/-- Opening an instance is answered by the plain machine if it succeeds on the same condition, and does
to the grid what the plain machine does to what it has. -/
theorem within_openInstance (name : Option String) (grid' : Grid)
    {opening : Context → Operation Instance} {may : Prop} [Decidable may] {p' : Plain}
    (htotal : ∀ ctx, contextOn thread s = some ctx →
      Within (openOn thread (opening ctx)) (Opening kept s (·.handle)) s)
    (hexact : ∀ ctx, Found ctx.descriptors → Operation.wp (loopback thread) (opening ctx)
      (fun i rt' => may ∧ i.handle.cls = .processor ∧ Shows files thread
        { grid := grid', tasks, owned := (i.handle.target, .processor name) :: owned } rt')
      (fun _ rt' => ¬ may ∧ Retains files thread { grid, tasks, owned } rt') s.runtime)
    (hdata : may → ∀ i : Instance, Matches (i.handle.target ::ₘ kept) grid' tasks
      ((i.handle.target, .processor name) :: owned)
      { handles with instances := i :: handles.instances } p')
    (hnext : p'.next = p.next) :
    Within (handles.openInstance thread opening)
      (Follows files (if may then (.opened, p') else (.refused, p))) s := by
  obtain ⟨ctx, hctx, hfound⟩ := h.ready.exists_context thread
  refine within_get ?_
  rw [hctx]
  refine within_bind (fun _ => grows_pure) ?_
  refine (h.ready.within_openOn (htotal ctx hctx) (hexact ctx hfound)).mono ?_
  rintro outcome s' ⟨hopening, hsame⟩
  -- that it ended is one fact, on which condition and with what desk the other
  cases hopening with
  | opened hallowed hcls hready =>
    rw [if_pos hallowed]
    exact within_pure ⟨rfl, _, _, _, _, hready, hdata hallowed _, hsame.trans (h.next.trans hnext.symm)⟩
  | refused hdenied hready =>
    rw [if_neg hdenied]
    exact within_pure ⟨rfl, _, _, _, _, hready, h.data, hsame.trans h.next⟩

/-- Starting an instance is starting one in the plain machine. -/
theorem within_start (path name : String) :
    Within (handles.play (.start thread path name))
      (Follows files (p.step files (.start thread path name))) s := by
  refine h.within_openInstance (Instance.wireName name) (grid.start (Instance.wireName name) path)
    (fun ctx hctx => h.ready.balanced.within_start hctx) ?_ ?_ rfl
  · intro ctx hfound
    refine Instance.wp_start_on hfound (h.ready.shows thread) ?_ ?_
    · intro hpathPasses hnamePasses hfile hstopped target rt' hshows
      rw [h.data.running] at hstopped
      exact ⟨⟨hpathPasses, hnamePasses, hfile, hstopped⟩, rfl, hshows⟩
    · intro hdenied e rt' hretains
      rw [h.data.running] at hdenied
      exact ⟨hdenied, hretains⟩
  · intro ⟨_, hpasses, _, hstopped⟩ i
    rw [← h.data.running] at hstopped
    exact h.data.started hpasses hstopped path

/-- Looking an instance up is looking it up in the plain machine. -/
theorem within_find (name : String) :
    Within (handles.play (.find thread name)) (Follows files (p.step files (.find thread name)))
      s := by
  refine h.within_openInstance (Instance.wireName name) grid
    (fun ctx hctx => h.ready.balanced.within_find hctx) ?_ ?_ rfl
  · intro ctx hfound
    refine Instance.wp_find_on hfound (h.ready.shows thread) ?_ ?_
    · intro _ hrunning target rt' hshows
      rw [h.data.running] at hrunning
      exact ⟨hrunning, rfl, hshows⟩
    · intro hdenied e rt' hretains
      rw [h.data.running] at hdenied
      exact ⟨fun hrunning => hdenied ⟨h.data.passes _ hrunning, hrunning⟩, hretains⟩
  · intro hrunning i
    rw [← h.data.running] at hrunning
    exact h.data.found hrunning

/-- Opening a cache is opening it in the plain machine. -/
theorem within_cache (source : Nat) (name : Option String) :
    Within (handles.play (.cache thread source name))
      (Follows files (p.step files (.cache thread source name))) s := by
  obtain ⟨ctx, hctx, hfound⟩ := h.ready.exists_context thread
  show Within (handles.openCache thread source name) _ s
  unfold Handles.openCache Plain.step
  dsimp only
  obtain ⟨hmissing, hmissing'⟩ | ⟨i, instanceName, hhere, hhere', hplace⟩ :=
    getElem?_cases h.data.instances source
  · rw [hmissing, hmissing']
    exact within_pure ⟨rfl, _, _, _, _, h⟩
  · have htotal : Within (openOn thread (i.cache (contextOn thread s) name)) _ s :=
      h.ready.balanced.within_cache hplace.kept
    obtain ⟨running, hknown⟩ := Grid.instance?_of_isRunning hplace.running
    rw [hhere, hhere']
    refine within_get (within_bind (fun _ => grows_pure) ?_)
    rw [hctx] at htotal ⊢
    cases hopened : grid.openCache instanceName running name with
    | mk store grid' =>
      have hexact : Operation.wp (loopback thread) (i.cache (some ctx) name)
          (fun c rt' => (Passes name ∧ name ≠ some "") ∧ c.handle.cls = .cache ∧ Shows files thread
            { grid := grid', tasks, owned := (c.handle.target, .cache store) :: owned } rt')
          (fun _ rt' => ¬ (Passes name ∧ name ≠ some "") ∧
            Retains files thread { grid, tasks, owned } rt') s.runtime :=
        Instance.wp_cache_on hfound (h.ready.shows thread) hplace.owned hknown hopened
          (fun hpasses hnamed target rt' hshows => ⟨⟨hpasses, hnamed⟩, rfl, hshows⟩)
          fun hdenied e rt' hretains => ⟨hdenied, hretains⟩
      refine (h.ready.within_openOn htotal hexact).mono ?_
      rintro outcome s' ⟨hopening, hsame⟩
      -- whether the cache was there or not, its address leads to its store now
      have hnow : grid.Opened ⟨instanceName, name⟩ store grid' :=
        Grid.opened_of_openCache h.data.separate hknown hopened
      cases hopening with
      | opened hallowed hcls hready =>
        dsimp only
        rw [if_pos hallowed]
        exact within_pure ⟨rfl, _, _, _, _, hready, h.data.opened hnow hcls, hsame.trans h.next⟩
      | refused hdenied hready =>
        dsimp only
        rw [if_neg hdenied]
        exact within_pure ⟨rfl, _, _, _, _, hready, h.data, hsame.trans h.next⟩

/-! ### Calls on caches -/

/-- An operation on an open cache. -/
theorem within_onCache {target : Nat} {f : Cache → Step Reply} {g : Address → Reply × Plain}
    (hcall : ∀ c a, CacheAt kept owned grid c a → Within (f c) (fun reply s' =>
      reply = (g a).1 ∧ Simulates files s' handles (g a).2) s) :
    Within (handles.onCache target f) (Follows files (p.onCache target g)) s := by
  unfold Handles.onCache Plain.onCache
  -- either both have a cache in this place or neither has
  obtain ⟨hmissing, hmissing'⟩ | ⟨c, a, hhere, hhere', hplace⟩ := getElem?_cases h.data.caches target
  · rw [hmissing, hmissing']
    exact within_pure ⟨rfl, _, _, _, _, h⟩
  · rw [hhere, hhere']
    refine within_bind (fun _ => grows_pure) ((hcall c a hplace).mono ?_)
    exact fun reply s' hended => within_pure hended

/-- A call that is carried out at once, whatever its value is read as. -/
theorem within_call {c : Cache} {a : Address} (hplace : CacheAt kept owned grid c a) (call : CacheCall)
    (value : α) {operation : Operation α}
    (htotal : Within (perform thread operation) (fun _ s' => Quiet kept s s') s)
    (hexact : ∀ store, (c.handle.target, .cache store) ∈ owned → grid.contents store = p.contents a →
      Operation.wp (loopback thread) operation
        (fun value' rt' => value' = value ∧
          Shows files thread (Desk.done { grid, tasks, owned } call store) rt')
        (fun _ _ => False) s.runtime) :
    Within (perform thread operation) (fun outcome s' => outcome = .ok value ∧
      Simulates files s' handles (p.write a (call.apply (p.contents a)).1)) s := by
  obtain ⟨store, hmem, hknown⟩ := hplace.store
  have hcontents : grid.contents store = p.contents a := by
    rw [← h.data.held, Grid.held_of_storeAt? hknown]
  refine (h.ready.within_perform htotal (hexact store hmem hcontents)).mono ?_
  rintro outcome s' ⟨hended, hready, hsame⟩
  -- the store is written, and so is what the plain machine holds under the address
  have hdata := h.data.written hknown (call.apply (grid.contents store)).1
  rw [← hcontents]
  exact ⟨hended, _, _, _, _, hready, hdata, hsame.trans h.next⟩

/-- A put writes the plain cache. -/
theorem within_put (target : Nat) (key value : Int32) :
    Within (handles.play (.put thread target key value))
      (Follows files (p.step files (.put thread target key value))) s := by
  obtain ⟨ctx, hctx, hfound⟩ := h.ready.exists_context thread
  refine h.within_onCache fun c a hplace => within_get (within_bind (fun _ => grows_pure) ?_)
  refine (h.within_call hplace (.put key value) 1 (h.ready.balanced.within_inOp hplace.kept) ?_).mono ?_
  · intro store hmem _
    rw [hctx]
    exact Handle.wp_inOp_on (.put key value) hfound (h.ready.shows thread) rfl hplace.cls hmem rfl
      fun rt' hshows => ⟨rfl, hshows⟩
  · rintro _ s' ⟨rfl, hsimulates⟩
    exact within_pure ⟨rfl, hsimulates⟩

/-- A removal writes the plain cache, and says whether the key was there. -/
theorem within_remove (target : Nat) (key : Int32) :
    Within (handles.play (.remove thread target key))
      (Follows files (p.step files (.remove thread target key))) s := by
  obtain ⟨ctx, hctx, hfound⟩ := h.ready.exists_context thread
  refine h.within_onCache fun c a hplace => within_get (within_bind (fun _ => grows_pure) ?_)
  refine (h.within_call hplace (.remove key) ((p.contents a).contains key)
    (h.ready.balanced.within_remove hplace.kept) ?_).mono ?_
  · intro store hmem hcontents
    rw [hctx, ← hcontents]
    refine Operation.wp_bind.mpr (Handle.wp_inOp_on (.remove key) hfound (h.ready.shows thread) rfl
      hplace.cls hmem rfl fun rt' hshows => ⟨?_, hshows⟩)
    -- the answer of the wire is one or zero
    show ((if (grid.contents store).contains key = true then 1 else 0 : Int64).toInt32 == 1) = _
    cases (grid.contents store).contains key <;> rfl
  · rintro _ s' ⟨rfl, hsimulates⟩
    exact within_pure ⟨rfl, hsimulates⟩

/-- The size is that of the plain cache. -/
theorem within_size (target : Nat) :
    Within (handles.play (.size thread target)) (Follows files (p.step files (.size thread target)))
      s := by
  obtain ⟨ctx, hctx, hfound⟩ := h.ready.exists_context thread
  refine h.within_onCache fun c a hplace => within_get (within_bind (fun _ => grows_pure) ?_)
  refine (h.within_call hplace .size (Int64.ofNat (p.contents a).size).toUInt64
    (h.ready.balanced.within_inOutOp hplace.kept) ?_).mono ?_
  · intro store hmem hcontents
    rw [hctx, ← hcontents]
    exact Handle.wp_inOutOp_on .size hfound (h.ready.shows thread) rfl hplace.cls hmem rfl
      fun rt' hshows => ⟨rfl, hshows⟩
  · rintro _ s' ⟨rfl, hsimulates⟩
    refine within_pure ⟨?_, by simpa [CacheCall.apply] using hsimulates⟩
    exact congrArg Reply.size (toNat_size _)

/-! ### Updates that are carried out later -/

/-- An update that is issued waits in the queue of the plain machine, under the next number. -/
theorem within_issue (target : Nat) (update : Update) (loop : LoopId) (reaction : Reaction) :
    Within (handles.play (.issue thread target update loop reaction))
      (Follows files (p.step files (.issue thread target update loop reaction))) s := by
  obtain ⟨ctx, hctx, hfound⟩ := h.ready.exists_context thread
  refine h.within_onCache fun c a hplace => within_get (within_bind (fun _ => grows_pure) ?_)
  obtain ⟨store, hmem, hknown⟩ := hplace.store
  have htotal : Within (issueUpdate thread c loop reaction update) (fun _ s' => Quiet kept s s') s := by
    rw [issueUpdate_eq]
    exact h.ready.balanced.within_issueFrom hplace.kept
  -- the relay counts the call before anything is asked of the runtime
  have hcalled : Partly (perform thread (c.handle.inOutOpAsync (some ctx) update.call.op
      (requestOf update.call) .relay s.relay.nextCall)) (fun outcome s' =>
        Met (fun _ rt' => Shows files thread { grid, owned, tasks := tasks ++
          [update.call.task store (.callback .relay) (.ofNat64 s.relay.nextCall)] } rt')
          (fun _ _ => False) outcome s'.runtime ∧
        Beside { s with relay := (s.relay.begin loop reaction).2 } s')
      { s with relay := (s.relay.begin loop reaction).2 } :=
    partly_perform (Handle.wp_inOutOpAsync_on update.call hfound (h.ready.shows thread) rfl
      hplace.cls hmem
      update.supports_call fun rt' hshows => hshows)
      ⟨h.ready.balanced.untapped.substitutes, h.ready.balanced.untapped.holding⟩
  have hexact : Partly (issueUpdate thread c loop reaction update) (fun outcome s' =>
      outcome = .ok () ∧ Shows files thread { grid, owned, tasks := tasks ++
        [update.call.task store (.callback .relay) (.ofNat64 p.next)] } s'.runtime ∧
      s'.relay.nextCall = p.next + 1) s := by
    rw [issueUpdate_eq, ← h.next]
    unfold issueFrom
    refine partly_bind (fun id => grows_get fun s => grows_bind (grows_play _) grows_withdraw) ?_
    refine partly_modifyGet (partly_get (partly_bind grows_withdraw ?_))
    rw [← hctx] at hcalled
    refine hcalled.mono ?_
    rintro (e | _) s' ⟨hmet, hbeside⟩
    · exact hmet.elim
    · exact partly_pure ⟨rfl, hmet, hbeside.next⟩
  refine (htotal.and_partly hexact).mono ?_
  rintro _ s' ⟨hquiet, rfl, hshows, hnext⟩
  refine within_pure ⟨congrArg Reply.issued h.next, _, _, _, _, h.ready.after hquiet hshows, ?_, hnext⟩
  exact h.data.issued hknown update p.next (p.next + 1)

/-- A task that is run is an update of the plain machine that is carried out. -/
theorem within_execute (index : Nat) :
    Within (handles.play (.execute index)) (Follows files (p.step files (.execute index))) s := by
  have hshows := h.ready.shows mainThread
  refine within_bind (fun _ => grows_pure) (within_get ?_)
  unfold Plain.step
  obtain ⟨hmissing, hmissing'⟩ | ⟨task, q, hhere, hhere', hplace⟩ := getElem?_cases h.data.queue index
  · have hnone : takeTask? s.runtime index = none := by
      unfold takeTask?
      rw [hshows.tasks, hmissing]
      rfl
    simp only [hnone, hmissing']
    exact within_pure (within_pure ⟨rfl, _, _, _, _, h⟩)
  · obtain ⟨store, hknown, rfl⟩ := hplace
    have hcontents : grid.contents store = p.contents q.address := by
      rw [← h.data.held, Grid.held_of_storeAt? hknown]
    have hresult : (q.update.call.apply (grid.contents store)).2.toUInt64 =
        q.update.result (p.contents q.address) := by
      rw [hcontents, Update.apply_call, UInt64.toUInt64_toInt64]
    have hafter : (q.update.call.apply (grid.contents store)).1 =
        q.update.apply (p.contents q.address) := by
      rw [hcontents, Update.apply_call]
    -- the task is taken off and run, and one completion is handed out
    have htaken : Shows files mainThread { grid, tasks := tasks.eraseIdx index, owned }
        { s.runtime with tasks := tasks.eraseIdx index } := { hshows with tasks := rfl }
    have hran : takeTask? s.runtime index = some { s.runtime with
        tasks := tasks.eraseIdx index
        grid := grid.setContents store (q.update.apply (p.contents q.address))
        outbox := [{
          entry := .completion
          callback := .callback .relay
          data := .ofNat64 q.id
          completion := ⟨resultOk, q.update.result (p.contents q.address)⟩ }] } := by
      unfold takeTask?
      rw [hshows.tasks, hhere, Option.map_some, htaken.runTask, htaken.grid, hresult, hafter]
    have hready := h.ready.after_work (calm_takeTask hran)
      { htaken.done q.update.call store with grid := rfl, outbox := rfl }
    simp only [hran, hhere']
    refine within_bind (fun _ => grows_pure) (within_modify (within_pure (within_pure ⟨?_, ?_⟩)))
    · exact congrArg Reply.executed (completedBy_one ..)
    · refine ⟨_, _, _, _, hready, ?_, ?_⟩
      · exact (h.data.written hknown _).taken index
      · exact (beside_receiveAll _).next.trans h.next

end Represents

/-! ## One operation and many -/

/-- **Each operation is one of the plain machine.** -/
theorem Simulates.step (h : Simulates files s handles p) (op : Op) :
    Within (handles.play op) (Follows files (p.step files op)) s := by
  obtain ⟨kept, grid, tasks, owned, h⟩ := h
  cases op with
  | start thread path name => exact h.within_start path name
  | find thread name => exact h.within_find name
  | cache thread source name => exact h.within_cache source name
  | put thread target key value => exact h.within_put target key value
  | remove thread target key => exact h.within_remove target key
  | size thread target => exact h.within_size target
  | issue thread target update loop reaction => exact h.within_issue target update loop reaction
  | execute index => exact h.within_execute index

/-- Operations in a row are those of the plain machine. -/
theorem Simulates.run (h : Simulates files s handles p) (ops : List Op) :
    Within (Handles.playAll ops handles) (Follows files (p.stepAll files ops)) s := by
  induction ops generalizing s handles p with
  | nil => exact within_pure ⟨rfl, h⟩
  | cons op rest ih =>
    refine within_bind (fun _ => grows_bind (grows_playAll rest _) fun _ => grows_pure) ?_
    -- the first operation leaves what stands for the next plain machine, and the rest starts there
    refine (h.step op).mono ?_
    rintro ⟨reply, handles'⟩ s' ⟨hsame, hsimulates⟩
    refine within_bind (fun _ => grows_pure) ((ih hsimulates).mono ?_)
    rintro ⟨replies, handles''⟩ s'' ⟨hsame', hsimulates'⟩
    refine within_pure ⟨?_, hsimulates'⟩
    exact congrArg₂ List.cons hsame hsame'

end GridBridge.Refinement
