import GridBridge.Proofs.Managed.Deeds

/-!
# Frames: what calls leave as it was

Calls use things up beside what they are for: numbers of references, injected faults, the count of
exceptions in the log. **`Touched`** says that nothing else has changed in a runtime. **`silent`** is
the loopback runtime as a contract for calls that send no completion, whatever faults are injected, and
harmless calls keep to it and only use things up (**`wp_harmless_silent`**). A method that stops has
changed nothing but what it uses up, and one that gives a value has changed the grid or the tasks and
nothing beside them.
-/

namespace GridBridge.Managed

open Protocol Seam

/-! ## What is used up -/

/-- What a budget may have come down to. -/
def Budget.Spends : Budget → Budget → Prop
  | .count n, .count left => left ≤ n
  | .endless, .endless => True
  | _, _ => False

namespace Budget

variable {b b' b'' : Budget}

/-- Nothing is used up. -/
theorem Spends.refl (b : Budget) : b.Spends b := by
  cases b with
  | count n => exact Nat.le_refl n
  | endless => trivial

/-- What is used up later comes on top. -/
theorem Spends.trans (h : b.Spends b') (h' : b'.Spends b'') : b.Spends b'' := by
  cases b' with
  | endless =>
    cases b with
    | endless => exact h'
    | count n => exact False.elim h
  | count m =>
    cases b with
    | endless => exact False.elim h
    | count n =>
      cases b'' with
      | endless => exact False.elim h'
      | count left => exact Nat.le_trans h' h

/-- One fault is used up. -/
theorem spends_of_take? (h : b.take? = some b') : b.Spends b' := by
  cases b with
  | endless =>
    cases h
    trivial
  | count n =>
    cases n with
    | zero => cases h
    | succ left =>
      cases h
      exact Nat.le_succ left

end Budget

/-- Nothing has changed but what calls on the thread use up, references and what is pending. -/
structure Touched (thread : ThreadId) (rt rt' : Runtime) : Prop where
  same : rt' = { rt with
    refs := rt'.refs
    pending := rt'.pending
    attached := rt'.attached
    described := rt'.described
    faults := { rt.faults with
      messageFaults := rt'.faults.messageFaults
      globalRefFaults := rt'.faults.globalRefFaults } }
  refs : rt.refs.Since rt'.refs
  attached : rt'.attached = rt.attached ∨
    thread ∉ rt.attached ∧ rt'.attached = thread :: rt.attached
  described : rt.described ≤ rt'.described
  messages : rt.faults.messageFaults.Spends rt'.faults.messageFaults
  globals : rt.faults.globalRefFaults.Spends rt'.faults.globalRefFaults

variable {thread : ThreadId} {rt₀ rt rt' rt'' : Runtime}

namespace Touched

/-- Nothing has changed. -/
theorem refl (thread : ThreadId) (rt : Runtime) : Touched thread rt rt where
  same := rfl
  refs := .refl
  attached := .inl rfl
  described := Nat.le_refl _
  messages := .refl _
  globals := .refl _

theorem trans (h : Touched thread rt rt') (h' : Touched thread rt' rt'') : Touched thread rt rt'' where
  same := by
    rw [h'.same, h.same]
  refs := h.refs.trans h'.refs
  attached := by
    -- the thread attaches once, in the first part or in the second
    rcases h.attached with hsame | ⟨hnew, hattached⟩ <;> rcases h'.attached with hsame' | ⟨hnew',
      hattached'⟩
    · exact .inl (hsame'.trans hsame)
    · exact .inr ⟨hsame ▸ hnew', by rw [hattached', hsame]⟩
    · exact .inr ⟨hnew, hsame'.trans hattached⟩
    · exact absurd (List.mem_cons_self ..) (hattached ▸ hnew')
  described := Nat.le_trans h.described h'.described
  messages := h.messages.trans h'.messages
  globals := h.globals.trans h'.globals

/-- Nothing was sent. -/
theorem outbox (h : Touched thread rt rt') : rt'.outbox = rt.outbox := by rw [h.same]

/-- The grid is as it was. -/
theorem grid (h : Touched thread rt rt') : rt'.grid = rt.grid := by rw [h.same]

/-- Threads are admitted as before. -/
theorem admits (h : Touched thread rt rt') : rt'.admits = rt.admits := by
  rw [h.same]
  rfl

/-- The same with another grid before and after. -/
theorem withGrid (h : Touched thread rt rt') (grid : Grid) :
    Touched thread { rt with grid } { rt' with grid } where
  same := by
    rw [h.same]
  refs := h.refs
  attached := h.attached
  described := h.described
  messages := h.messages
  globals := h.globals

/-- References were made and given back. -/
theorem of_refs {refs : RefTable} (hsince : rt.refs.Since refs) : Touched thread rt { rt with refs } :=
  { refl thread rt with same := rfl, refs := hsince }

/-- An exception has become pending. -/
theorem raise (h : Touched thread rt rt') (thrown : Thrown) :
    Touched thread rt (rt'.raise thread thrown) :=
  h.trans { refl thread rt' with same := rfl }

/-- The thread is attached, if it was not before. -/
theorem attachThread (thread : ThreadId) (rt : Runtime) :
    Touched thread rt (rt.attachThread thread) := by
  unfold Runtime.attachThread
  split
  · exact refl thread rt
  · rename_i hnew
    exact { refl thread rt with same := rfl, attached := .inr ⟨by simpa using hnew, rfl⟩ }

end Touched

/-! ## References that are made and given back -/

namespace Answering

/-- A local reference marks the object that it was made for. -/
theorem ends_localRef (found : Option Object) :
    Ends (localRef found) (fun r rt' => rt'.refs.next ≤ 2 ^ 64 → ∃ refs, rt' = { rt with refs } ∧
      rt.refs.Since refs ∧ (rt.refs.Sound → refs.Marks r found)) rt := by
  cases found with
  | none => exact ends_pure fun _ => ⟨rt.refs, rfl, .refl, fun _ => rfl⟩
  | some object =>
    refine ends_bind (ends_get (ends_bind (ends_set (ends_pure fun hroom => ?_))))
    exact ⟨_, rfl, .made .refl hroom object .localRef, fun hsound => hsound.marks_token hroom
      object .localRef⟩

/-- A reference that is given back is gone. -/
theorem ends_deleteRef (r : Ref) (kind : RefKind) :
    Ends (deleteRef r kind) (fun _ rt' => ∃ refs, rt' = { rt with refs } ∧ rt.refs.Since refs) rt := by
  refine ends_bind (ends_get ?_)
  cases hremoved : rt.refs.remove r kind with
  | ok refs => exact ends_set ⟨refs, rfl, .of_remove hremoved⟩
  | error fault => cases fault <;> exact ends_throw

/-- A method that is run: a value is given back, and what is thrown is left pending. -/
theorem ends_runMethod_of {behaviour : Behaviour} {self : Option Object} {values : List ArgValue}
    {Q : CallValue → Runtime → Prop}
    (hcomes : Comes (Code.dispatch behaviour self values) Q
      (fun stop rt' => ∀ thrown, stop = .thrown thrown → Q .void (rt'.raise thread thrown)) rt) :
    Ends (runMethod thread behaviour self values) Q rt := by
  unfold Comes at hcomes
  cases hrun : (Code.dispatch behaviour self values).run.run rt with
  | mk outcome rt₁ =>
    rw [hrun] at hcomes
    refine ends_runMethod hrun ?_ ?_
    · rintro value rfl
      exact hcomes
    · rintro thrown rfl
      exact hcomes thrown rfl

end Answering

/-! ## Calls that send nothing -/

/-- The loopback runtime as a contract for calls that send no completion. Its answers are those that it
gives on the thread before its numbers come round. -/
def silent (thread : ThreadId) : Contract Runtime where
  takes rt request := Ends (answer thread request)
    (fun _ rt' => rt'.refs.next ≤ 2 ^ 64 → rt'.outbox = []) rt
  answers rt request reply rt' := rt'.refs.next ≤ 2 ^ 64 ∧
    (answer thread request).run.run rt = (.ok reply, rt')

/-- A call keeps to the contract if it sends nothing while numbers last. -/
theorem wp_silent {request : Call} {Q : request.Reply → Runtime → Prop}
    (h : Ends (answer thread request)
      (fun reply rt' => rt'.refs.next ≤ 2 ^ 64 → rt'.outbox = [] ∧ Q reply rt') rt) :
    (Script.ask request).wp (silent thread) Q rt := by
  refine Script.wp_ask.mpr ⟨h.mono fun reply rt' hended hroom => (hended hroom).1, ?_⟩
  exact fun reply rt' ⟨hroom, hrun⟩ => (h reply rt' hrun hroom).2

/-! ## Methods that look -/

/-- Methods that carry requests out, now or later. -/
def Behaviour.operates : Behaviour → Bool
  | .targetInOp | .targetInOutOp | .targetInOutOpAsync => true
  | _ => false

namespace Code

variable {α β : Type}

/-- Methods that only look at their receiver may use a message fault up. -/
theorem comes_looks {behaviour : Behaviour} (hlooks : behaviour.looks = true) (thread : ThreadId)
    (self : Option Object) (values : List ArgValue) :
    Comes (dispatch behaviour self values) (fun _ rt' => Touched thread rt rt')
      (fun _ rt' => Touched thread rt rt') rt := by
  -- a message fault is all that such a method uses up
  have htouched {rt' : Runtime} (hchange : Change rt behaviour rt') : Touched thread rt rt' := by
    cases hchange with
    | nothing => exact .refl thread rt
    | faulted htaken =>
      exact { Touched.refl thread rt with same := rfl, messages := Budget.spends_of_take? htaken }
    | executed hnow => rcases hnow with rfl | rfl <;> cases hlooks
    | _ => cases hlooks
  exact (comes_dispatch self values behaviour).mono (fun _ _ => htouched) fun _ _ hstops =>
    htouched hstops.change

/-! ## Methods that change something -/

/-- The code gives an object, or none, and has changed nothing but the grid, as `G` says; or it stops,
for which there is the reason `S`, and has changed nothing. -/
def Gives (rt : Runtime) (G : Option Object → Grid → Prop) (S : Prop) (x : Code CallValue) : Prop :=
  Comes x (fun value rt' => ∃ found grid, value = .object found ∧ rt' = { rt with grid } ∧ G found grid)
    (fun _ rt' => rt' = rt ∧ S) rt

variable (rt)

/-- An instance that is found is running. -/
theorem gives_findInstance (name : Option String) :
    (findInstance [.object (name.map .str)]).Gives rt
      (fun found grid => found = some (.grid name) ∧ grid = rt.grid ∧ rt.grid.isRunning name = true)
      (rt.grid.isRunning name = false) := by
  unfold Gives findInstance
  refine comes_next (run_stringArg rfl) (comes_get ?_)
  split
  · rename_i hrunning
    exact comes_pure ⟨_, _, rfl, rfl, rfl, rfl, hrunning⟩
  · rename_i hstopped
    exact comes_throw ⟨rfl, by simpa using hstopped⟩

/-- An instance is started under a name that is not running, or none is. -/
theorem gives_startInstance (path : String) (name : Option String) (rest : List ArgValue) :
    (startInstance (.object (some (.str path)) :: .object (name.map .str) :: rest)).Gives rt
      (fun found grid => found = none ∧ grid = rt.grid ∨ rt.grid.isRunning name = false ∧
        found = some (.grid name) ∧ grid = rt.grid.start name path) True := by
  unfold Gives startInstance
  refine comes_next (run_stringArg_some rfl) (comes_next (run_stringArg rfl) (comes_get ?_))
  split
  · exact comes_throw ⟨rfl, trivial⟩
  · rename_i hfile
    -- the file was there, so the path is the one that was passed
    cases (Option.filter_eq_some_iff.mp hfile).1
    dsimp only
    split
    · exact comes_throw ⟨rfl, trivial⟩
    · rename_i hstopped
      split
      · exact comes_pure ⟨_, _, rfl, rfl, .inl ⟨rfl, rfl⟩⟩
      · exact comes_bind (comes_set (comes_pure ⟨_, _, rfl, rfl, .inr ⟨by simpa using hstopped,
          rfl, rfl⟩⟩))

/-- A running instance has a processor. -/
theorem gives_interop {name : Option String} (hrunning : rt.grid.isRunning name = true) :
    (interop [.object (some (.grid name))]).Gives rt
      (fun found grid => found = some (.processor name) ∧ grid = rt.grid) False := by
  unfold Gives interop
  have harg : (arg [.object (some (.grid name))] 0).run.run rt =
      (.ok (.object (some (.grid name))), rt) := rfl
  refine comes_next harg (comes_get ?_)
  rw [if_pos hrunning]
  exact comes_pure ⟨_, _, rfl, rfl, rfl, rfl⟩

/-- A cache is opened on a running instance, or there is none to be opened. -/
theorem gives_openCache (self : Option Object) (name : Option String) :
    (openCache self [.object (name.map .str)]).Gives rt
      (fun found grid => found = none ∧ grid = rt.grid ∨ ∃ instanceName i,
        self = some (.processor instanceName) ∧ rt.grid.instance? instanceName = some i ∧
        (∃ store, found = some (.cache store)) ∧ grid = (rt.grid.openCache instanceName i name).2)
      True := by
  unfold Gives openCache
  cases self with
  | none => exact comes_bind (comes_throw ⟨rfl, trivial⟩)
  | some object =>
    have hself : (receiver (some object)).run.run rt = (.ok object, rt) := rfl
    -- only a started instance has caches to open
    refine comes_next hself ?_
    cases object with
    | processor instanceName =>
      refine comes_next (run_stringArg rfl) ?_
      split
      · exact comes_pure ⟨_, _, rfl, rfl, .inl ⟨rfl, rfl⟩⟩
      · refine comes_get ?_
        split
        -- the instance is not running
        · exact comes_throw ⟨rfl, trivial⟩
        · rename_i i hfound
          refine comes_bind (comes_set (comes_pure ⟨_, _, rfl, rfl, .inr ?_⟩))
          exact ⟨instanceName, i, rfl, hfound, ⟨_, rfl⟩, rfl⟩
    | _ => exact comes_throw ⟨rfl, trivial⟩

/-- A request that is carried out has changed grid or tasks at most, and one that is not has changed
nothing. -/
theorem comes_operates {behaviour : Behaviour} (hoperates : behaviour.operates = true)
    (self : Option Object) (values : List ArgValue) :
    Comes (dispatch behaviour self values) (fun _ rt' => ∃ grid tasks, rt' = { rt with grid, tasks })
      (fun _ rt' => rt' = rt) rt := by
  refine (comes_dispatch self values behaviour).mono ?_ ?_
  -- of all changes only these two are left to such a method
  · intro _ rt' hchange
    cases hchange with
    | nothing => exact ⟨rt.grid, rt.tasks, rfl⟩
    | executed => exact ⟨_, rt.tasks, rfl⟩
    | queued => exact ⟨rt.grid, _, rfl⟩
    | _ => cases hoperates
  · intro _ rt' hstops
    apply hstops.unchanged
    rintro rfl
    cases hoperates

end Code

/-! ## Harmless calls -/

open Answering

/-- A harmless call leaves all as it was, whatever faults are injected. -/
theorem ends_harmless {request : Call} (hharmless : Harmless request) :
    Ends (answer thread request)
      (fun _ rt' => rt'.refs.next ≤ 2 ^ 64 → Touched thread rt rt') rt := by
  -- a reference that is made once something else has been done
  have hlocalOf {rt' : Runtime} (htouched : Touched thread rt rt') (found : Option Object) :
      Ends (localRef found) (fun _ rt'' => rt''.refs.next ≤ 2 ^ 64 → Touched thread rt rt'') rt' := by
    refine (ends_localRef found).mono fun _ rt'' hmade hroom => ?_
    obtain ⟨refs, rfl, hsince, _⟩ := hmade hroom
    exact htouched.trans (.of_refs hsince)
  have hsame : Touched thread rt rt := .refl thread rt
  cases request with
  | exceptionCheck => exact ends_bind (ends_get (ends_pure fun _ => hsame))
  | exceptionOccurred => exact ends_bind (ends_get (hlocalOf hsame _))
  | exceptionDescribe =>
    refine ends_bind (ends_get ?_)
    split
    · exact ends_modify fun _ => { hsame with same := rfl, described := Nat.le_succ _ }
    · exact ends_pure fun _ => hsame
  | exceptionClear => exact ends_modify fun _ => { hsame with same := rfl }
  | getObjectClass obj =>
    refine ends_bind (ends_resolve.mono ?_)
    rintro found _ ⟨rfl, _⟩
    exact hlocalOf hsame _
  | getString str =>
    refine ends_bind (ends_resolve.mono ?_)
    rintro found _ ⟨rfl, _⟩
    split <;> exact ends_pure fun _ => hsame
  | deleteLocalRef r =>
    refine (ends_deleteRef r .localRef).mono ?_
    rintro _ _ ⟨refs, rfl, hsince⟩ _
    exact .of_refs hsince
  | callObject obj method args =>
    obtain ⟨entry, hmethod, hlooks⟩ := hharmless
    refine ends_bind (ends_invoke hmethod fun self values _ _ _ => ends_runMethod_of ?_)
    refine (Code.comes_looks hlooks thread self values).mono ?_ ?_
    · intro value rt' htouched
      cases value with
      | object found => exact hlocalOf htouched found
      | _ => exact ends_pure fun _ => htouched
    · exact fun _ rt' htouched thrown _ => ends_pure fun _ => htouched.raise thrown
  | _ => exact hharmless.elim

/-- A harmless call adds to what was used up before. -/
theorem wp_harmless_silent (hquiet : rt₀.outbox = []) (htouched : Touched thread rt₀ rt)
    (request : Call) (hharmless : Harmless request) {Q : request.Reply → Runtime → Prop}
    (hQ : ∀ reply rt', Touched thread rt₀ rt' → Q reply rt') :
    (Script.ask request).wp (silent thread) Q rt := by
  refine wp_silent ((ends_harmless hharmless).mono fun reply rt' hended hroom => ?_)
  have htouched' := htouched.trans (hended hroom)
  exact ⟨htouched'.outbox.trans hquiet, hQ reply rt' htouched'⟩

/-- With nothing pending there is nothing to be found. -/
theorem wp_exceptionCheck_silent (hclear : rt.pending? thread = none) (hquiet : rt.outbox = [])
    {Q : Bool → Runtime → Prop} (hQ : Q false rt) :
    (Script.ask .exceptionCheck).wp (silent thread) Q rt := by
  refine wp_silent (ends_bind (ends_get (ends_pure fun _ => ⟨hquiet, ?_⟩)))
  rw [hclear]
  exact hQ

/-- A script of harmless calls does so as well. -/
theorem wp_of_makes {α : Type} {told : ManagedFault → Prop} {script : Script α}
    (hmakes : script.Makes Harmless told) (hquiet : rt₀.outbox = [])
    (htouched : Touched thread rt₀ rt) :
    script.wp (silent thread) (fun _ rt' => Touched thread rt₀ rt') rt := by
  induction script generalizing rt with
  | done value => exact htouched
  | call request next ih =>
    show (Script.ask request >>= next).wp _ _ _
    refine Script.wp_bind.mpr (wp_harmless_silent hquiet htouched request hmakes.1 ?_)
    exact fun reply rt' htouched' => ih reply (hmakes.2 reply) htouched'
  | report fault next ih => exact ih hmakes.2 htouched

/-- A runtime that was launched before refuses to be launched. -/
theorem wp_launch_refused (hbegun : rt.phase ≠ .idle) (hquiet : rt.outbox = []) {args : LaunchArgs}
    {Q : Except Status Unit → Runtime → Prop} (hQ : Q (.error Status.alreadyExists) rt) :
    (Script.ask (.launch args)).wp (silent thread) Q rt := by
  have hrefused : rt.launch thread args = (.error Status.alreadyExists, rt) := by
    rw [Runtime.launch_eq, if_pos hbegun]
  have hanswered : (answer thread (.launch args)).run.run rt =
      (.ok (.error Status.alreadyExists), rt) := by
    show ((.ok (rt.launch thread args).1, (rt.launch thread args).2) :
      Except Fatal (Except Status Unit) × Runtime) = _
    rw [hrefused]
  refine wp_silent fun reply rt' hrun _ => ?_
  rw [hanswered] at hrun
  cases hrun
  exact ⟨hquiet, hQ⟩

end GridBridge.Managed
