import GridBridge.Managed.Dispatch
import GridBridge.Proofs.Outcome

/-!
# Managed code: what a method does, and what it leaves alone

**`Change`** lists what a method may do to the runtime, and **`comes_dispatch`** says that each method
does one of these things on the way to its value, and nothing if it throws, apart from a message fault
that it uses up. So a method never touches references, pending exceptions or the phase of the runtime,
and it never ends in a fatal use: **`Code.Tame`** says both. The same goes for the tasks that workers
run.
-/

namespace GridBridge.Managed

open Protocol Codec

/-! ## Requests are read within their length -/

/-- A value that fits can be read. -/
theorem exists_read {r : Reader} {k : Kind} (h : r.position + k.width ≤ r.data.size) :
    ∃ value next, r.read k = (.ok value, next) ∧ next.data = r.data ∧
      next.position = r.position + k.width :=
  ⟨_, _, dif_pos h, rfl, rfl⟩

/-- A key that could be read is the key. -/
theorem readKey_eq {r next : Reader} {key : Int32} (h : r.read .int = (.ok key, next)) :
    readKey r = .ok (key, next) := by
  unfold readKey
  rw [h]

/-- An operation checks the length of its request first, so it never reads past the end. -/
theorem applyOp_ne_fatal (op : Opcode) (contents : Contents) (request : List UInt8) (cause : Fatal) :
    applyOp op contents request ≠ .error (.fatal cause) := by
  unfold applyOp
  split
  · exact nofun
  · rename_i hlength
    -- long enough: every read ends where the request does, or before
    have hsize : (Reader.ofBytes request).data.size = request.length := by
      simp [Reader.ofBytes, Reader.ofArray]
    have hstart : (Reader.ofBytes request).position = 0 := rfl
    cases op with
    | put =>
      have hlong : 8 ≤ request.length := Nat.not_lt.mp hlength
      have hkey : (Reader.ofBytes request).position + Kind.int.width ≤
          (Reader.ofBytes request).data.size := by
        rw [hstart, hsize]
        exact Nat.le_trans (by decide) hlong
      obtain ⟨key, rest, hread, hdata, hposition⟩ := exists_read hkey
      have hvalue : rest.position + Kind.int.width ≤ rest.data.size := by
        rw [hposition, hdata, hstart, hsize]
        exact hlong
      -- the value starts where the key has ended
      obtain ⟨value, last, hread', _⟩ := exists_read hvalue
      rw [readKey_eq hread]
      show (readKey rest >>= fun _ => _) ≠ _
      rw [readKey_eq hread']
      exact nofun
    | remove =>
      have hlong : 4 ≤ request.length := Nat.not_lt.mp hlength
      have hkey : (Reader.ofBytes request).position + Kind.int.width ≤
          (Reader.ofBytes request).data.size := by
        rw [hstart, hsize]
        exact hlong
      obtain ⟨key, rest, hread, _⟩ := exists_read hkey
      rw [readKey_eq hread]
      exact nofun
    | size => exact nofun

/-- So an operation on a store never ends the process, whatever the request. -/
theorem execute_ne_fatal (g : Grid) (op : Opcode) (store : StoreId) (request : List UInt8)
    (cause : Fatal) : g.execute op store request ≠ .error (.fatal cause) := by
  unfold Grid.execute
  cases happly : applyOp op (g.contents store) request with
  | ok value => exact nofun
  | error stop =>
    intro h
    obtain rfl := Except.error.inj h
    exact applyOp_ne_fatal op _ request cause happly

/-! ## What managed code leaves alone -/

/-- Two states agree on references, pending exceptions, phase and admission of threads. -/
structure Runtime.Calm (rt rt' : Runtime) : Prop where
  refs : rt'.refs = rt.refs
  pending : rt'.pending = rt.pending
  phase : rt'.phase = rt.phase
  refuseAttach : rt'.faults.refuseAttach = rt.faults.refuseAttach

theorem Runtime.Calm.refl (rt : Runtime) : rt.Calm rt := ⟨rfl, rfl, rfl, rfl⟩

/-- One after the other. -/
theorem Runtime.Calm.trans {rt rt' rt'' : Runtime} (h : rt.Calm rt') (h' : rt'.Calm rt'') :
    rt.Calm rt'' :=
  ⟨h'.refs.trans h.refs, h'.pending.trans h.pending, h'.phase.trans h.phase,
    h'.refuseAttach.trans h.refuseAttach⟩

/-- What a method may do to the runtime: nothing, or one thing. -/
inductive Change (rt : Runtime) : Behaviour → Runtime → Prop where
  | nothing {behaviour : Behaviour} : Change rt behaviour rt
  | faulted {left : Budget} (htaken : rt.faults.messageFaults.take? = some left) :
      Change rt .throwableGetMessage { rt with faults := { rt.faults with messageFaults := left } }
  | started {name : Option String} (path : String) (hstopped : rt.grid.isRunning name = false) :
      Change rt .ignitionExStart { rt with grid := rt.grid.start name path }
  | opened {instanceName : Option String} {i : GridInstance} (cacheName : Option String)
      (hfound : rt.grid.instance? instanceName = some i) :
      Change rt .processorCache { rt with grid := (rt.grid.openCache instanceName i cacheName).2 }
  | executed {behaviour : Behaviour} {op : Opcode} {store : StoreId} {request : List UInt8}
      {grid : Grid} {result : Int64} (hnow : behaviour = .targetInOp ∨ behaviour = .targetInOutOp)
      (hdone : rt.grid.execute op store request = .ok (grid, result)) :
      Change rt behaviour { rt with grid }
  | queued (task : Task) (hup : rt.phase = .running) :
      Change rt .targetInOutOpAsync { rt with tasks := rt.tasks ++ [task] }
  | sent (signal : Signal) : Change rt .utilsAsyncCallback (rt.send [signal])

/-- Each of these things stays away from references, exceptions and the phase. -/
theorem Change.calm {rt rt' : Runtime} {behaviour : Behaviour} (h : Change rt behaviour rt') :
    rt.Calm rt' := by
  cases h <;> exact ⟨rfl, rfl, rfl, rfl⟩

namespace Code

variable {α β : Type} {rt₀ rt : Runtime}

/-! ## Code that looks at the runtime -/

/-- The code changes nothing, and ends in no fatal use. -/
def Reads (x : Code α) : Prop :=
  ∀ rt, Comes x (fun _ rt' => rt' = rt) (fun stop rt' => rt' = rt ∧ ∀ cause, stop ≠ .fatal cause) rt

theorem reads_pure {value : α} : Reads (pure value) := fun _ => comes_pure rfl

theorem reads_raise {cls : ThrownClass} {message : String} : Reads (raise cls message : Code α) :=
  fun _ => comes_throw ⟨rfl, nofun⟩

/-- Code that begins with looking: it ends as what follows does, or early and with nothing changed. -/
theorem Reads.comes {x : Code α} {f : α → Code β} {Q : β → Runtime → Prop} {E : Stop → Runtime → Prop}
    (hx : Reads x) (hE : ∀ stop, (∀ cause, stop ≠ .fatal cause) → E stop rt)
    (hf : ∀ value, Comes (f value) Q E rt) : Comes (x >>= f) Q E rt := by
  refine comes_bind ((hx rt).mono ?_ ?_)
  · rintro value _ rfl
    exact hf value
  · rintro stop _ ⟨rfl, hmanaged⟩
    exact hE stop hmanaged

/-- Looking in several steps is looking. -/
theorem Reads.bind {x : Code α} {f : α → Code β} (hx : Reads x) (hf : ∀ value, Reads (f value)) :
    Reads (x >>= f) :=
  fun rt => hx.comes (fun _ hmanaged => ⟨rfl, hmanaged⟩) fun value => hf value rt

section Arguments

variable (self : Option Object) (args : List ArgValue) (index : Nat)

/-- An argument is looked up, and one that is missing is managed code's own error. -/
theorem reads_arg : Reads (arg args index) := by
  unfold arg
  split
  · exact reads_pure
  · exact reads_raise

theorem reads_intArg : Reads (intArg args index) := by
  refine (reads_arg args index).bind fun value => ?_
  cases value with
  | int value => exact reads_pure
  | _ => exact reads_raise

theorem reads_longArg : Reads (longArg args index) := by
  refine (reads_arg args index).bind fun value => ?_
  cases value with
  | long value => exact reads_pure
  | _ => exact reads_raise

/-- A long argument is the one at its index. -/
theorem comes_longArg {f : Word → Code β} {Q : β → Runtime → Prop} {E : Stop → Runtime → Prop}
    (hE : ∀ stop, (∀ cause, stop ≠ .fatal cause) → E stop rt)
    (hf : ∀ value, args[index]? = some (.long value) → Comes (f value) Q E rt) :
    Comes (longArg args index >>= f) Q E rt := by
  unfold longArg arg
  cases hfound : args[index]? with
  | none => exact hE _ nofun
  | some value =>
    cases value with
    | long value => exact hf value hfound
    | _ => exact hE _ nofun

/-- A text argument may be null, and whatever else there is in its place is refused. -/
theorem reads_stringArg : Reads (stringArg args index) := by
  refine (reads_arg args index).bind fun value => ?_
  split
  · exact reads_pure
  · exact reads_pure
  · exact reads_raise
  · exact reads_raise

/-- A method that needs its object complains of none. -/
theorem reads_receiver : Reads (receiver self) := by
  cases self with
  | some object => exact reads_pure
  | none => exact reads_raise

theorem reads_throwableReceiver : Reads (throwableReceiver self) := by
  refine (reads_receiver self).bind fun object => ?_
  cases object with
  | throwable thrown => exact reads_pure
  | _ => exact reads_raise

/-- So does one that needs a cache, of any other object. -/
theorem reads_cacheReceiver : Reads (cacheReceiver self) := by
  refine (reads_receiver self).bind fun object => ?_
  cases object with
  | cache store => exact reads_pure
  | _ => exact reads_raise

/-- An unknown code, or one of another shape, is refused before anything is done. -/
theorem reads_decodeOp (code : Int32) (shape : Shape) : Reads (decodeOp code shape) := by
  unfold decodeOp
  split
  · exact reads_raise
  · split
    · exact reads_pure
    · exact reads_raise

/-- The request is looked up among the blocks of the machine, and none of it is written. -/
theorem reads_request (address : Word) (length : Int32) : Reads (request address length) := by
  unfold request
  split
  · exact reads_raise
  · split
    · exact reads_pure
    · split
      · exact reads_pure
      · split
        · exact reads_raise
        · exact reads_pure

/-- All that an operation is made of is read before it is carried out. -/
theorem reads_operation (shape : Shape) : Reads (operation self args shape) := by
  refine (reads_cacheReceiver self).bind fun store => ?_
  refine (reads_intArg args 0).bind fun code => ?_
  refine (reads_decodeOp code shape).bind fun op => ?_
  refine (reads_longArg args 1).bind fun address => ?_
  refine (reads_intArg args 2).bind fun length => ?_
  exact (reads_request address length).bind fun bytes => reads_pure

end Arguments

/-! ## Methods -/

section Methods

variable (self : Option Object) (args : List ArgValue)

/-- How a method stops: it has changed nothing, unless it used a message fault up. -/
structure Stops (rt : Runtime) (behaviour : Behaviour) (stop : Stop) (rt' : Runtime) : Prop where
  change : Change rt behaviour rt'
  unchanged : behaviour ≠ .throwableGetMessage → rt' = rt
  managed : ∀ cause, stop ≠ .fatal cause

theorem stops_at {behaviour : Behaviour} (stop : Stop) (hmanaged : ∀ cause, stop ≠ .fatal cause) :
    Stops rt behaviour stop rt :=
  ⟨.nothing, fun _ => rfl, hmanaged⟩

/-- A method that throws before it has changed anything. -/
theorem comes_raise {behaviour : Behaviour} {cls : ThrownClass} {message : String}
    {Q : α → Runtime → Prop} : Comes (raise cls message : Code α) Q (Stops rt behaviour) rt :=
  comes_throw (stops_at _ nofun)

/-- An operation that is carried out at once. -/
theorem comes_executeNow {behaviour : Behaviour} (shape : Shape)
    (hnow : behaviour = .targetInOp ∨ behaviour = .targetInOutOp) :
    Comes (executeNow self args shape) (fun _ => Change rt behaviour) (Stops rt behaviour) rt := by
  refine (reads_operation self args shape).comes stops_at fun (store, op, bytes) => comes_get ?_
  -- the grid may refuse the request, and then it is as it was
  cases hdone : rt.grid.execute op store bytes with
  | ok after => exact comes_bind (comes_set (comes_pure (.executed hnow hdone)))
  | error stop =>
    refine comes_throw (stops_at stop ?_)
    rintro cause rfl
    exact execute_ne_fatal rt.grid op store bytes cause hdone

/-- An operation that is carried out later: its task goes behind the others, with the callback and the
data that were passed. -/
theorem comes_executeLater :
    Comes (executeLater self args) (fun _ rt' => rt.phase = .running ∧ ∃ task : Task,
        args[3]? = some (.long task.callback) ∧ args[4]? = some (.long task.data) ∧
          rt' = { rt with tasks := rt.tasks ++ [task] })
      (Stops rt .targetInOutOpAsync) rt := by
  refine (reads_operation self args _).comes stops_at fun (store, op, bytes) => ?_
  refine comes_longArg args 3 stops_at fun callback hthird => ?_
  refine comes_longArg args 4 stops_at fun data hfourth => comes_get ?_
  split
  -- without workers the task is refused, else it is queued
  · exact comes_raise
  · rename_i hup
    exact comes_bind (comes_set (comes_pure ⟨Decidable.not_not.mp hup, _, hthird, hfourth, rfl⟩))

/-- **What every method does**, whatever it is called on and with. -/
theorem comes_dispatch (behaviour : Behaviour) :
    Comes (dispatch behaviour self args) (fun _ => Change rt behaviour) (Stops rt behaviour) rt := by
  cases behaviour with
  | throwableToString =>
    exact (reads_throwableReceiver self).comes stops_at fun thrown => comes_pure .nothing
  | throwableGetMessage =>
    refine (reads_throwableReceiver self).comes stops_at fun thrown => comes_get ?_
    dsimp only
    split
    -- an injected fault of the message look-up is used up before it is raised
    · rename_i left htaken
      exact comes_bind (comes_set (comes_throw ⟨.faulted htaken, fun hother => absurd rfl hother,
        nofun⟩))
    · exact comes_pure .nothing
  | classGetName =>
    refine (reads_receiver self).comes stops_at fun object => ?_
    cases object with
    | cls name => exact comes_pure .nothing
    | _ => exact comes_raise
  | ignitionIgnite =>
    refine (reads_stringArg args 0).comes stops_at fun name => comes_get ?_
    split
    · exact comes_pure .nothing
    · exact comes_raise
  | ignitionExStart =>
    refine (reads_stringArg args 0).comes stops_at fun configPath => ?_
    refine (reads_stringArg args 1).comes stops_at fun name => comes_get ?_
    split
    -- an unreadable configuration, a name in use, a null result by switch, a new instance
    · exact comes_raise
    · dsimp only
      split
      · exact comes_raise
      · rename_i hstopped
        split
        · exact comes_pure .nothing
        · exact comes_bind (comes_set (comes_pure (.started _ (by simpa using hstopped))))
  | utilsInterop =>
    -- a processor that is known has a target, and everything else is complained of
    refine (reads_arg args 0).comes stops_at fun value => ?_
    split
    · refine comes_get ?_
      split
      · exact comes_pure .nothing
      · exact comes_raise
    · exact comes_raise
    · exact comes_raise
  | utilsAsyncCallback =>
    refine (reads_longArg args 0).comes stops_at fun callback => ?_
    refine (reads_longArg args 1).comes stops_at fun data => ?_
    refine (reads_intArg args 2).comes stops_at fun resultType => ?_
    refine (reads_longArg args 3).comes stops_at fun result => comes_get ?_
    split
    -- the signal goes to the entry if one is bound
    · exact comes_bind (comes_set (comes_pure (.sent _)))
    · exact comes_raise
  | processorCache =>
    refine (reads_receiver self).comes stops_at fun object => ?_
    cases object with
    -- the instance may be gone by now, and the switch lets null come instead of a cache
    | processor instanceName =>
      refine (reads_stringArg args 0).comes stops_at fun name => ?_
      split
      · exact comes_pure .nothing
      · refine comes_get ?_
        split
        · exact comes_raise
        · rename_i hfound
          exact comes_bind (comes_set (comes_pure (.opened name hfound)))
    | _ => exact comes_raise
  | targetInOp =>
    refine comes_bind ((comes_executeNow self args _ (.inl rfl)).mono ?_ fun _ _ hstops => hstops)
    exact fun _ _ hchange => comes_pure hchange
  | targetInOutOp =>
    refine comes_bind ((comes_executeNow self args _ (.inr rfl)).mono ?_ fun _ _ hstops => hstops)
    exact fun _ _ hchange => comes_pure hchange
  | targetInOutOpAsync =>
    refine (comes_executeLater self args).mono ?_ fun _ _ hstops => hstops
    rintro _ _ ⟨hup, task, -, -, rfl⟩
    exact .queued task hup

end Methods

/-- Managed code leaves alone what it may not touch, and ends in no fatal use. -/
def Tame (x : Code α) (rt₀ rt : Runtime) : Prop :=
  rt₀.Calm (x.run.run rt).2 ∧ ∀ cause, (x.run.run rt).1 ≠ .error (.fatal cause)

/-- **Every method is tame**, whatever it is called on and with. -/
theorem tame_dispatch (behaviour : Behaviour) (self : Option Object) (args : List ArgValue)
    (h : rt₀.Calm rt) : Tame (dispatch behaviour self args) rt₀ rt := by
  have hcomes : Comes (dispatch behaviour self args) (fun _ => Change rt behaviour)
      (Stops rt behaviour) rt := comes_dispatch self args behaviour
  -- what the method comes to is read off its run
  unfold Comes at hcomes
  unfold Tame
  cases hrun : (dispatch behaviour self args).run.run rt with
  | mk outcome rt' =>
    rw [hrun] at hcomes
    cases outcome with
    | ok value => exact ⟨h.trans hcomes.calm, nofun⟩
    | error stop =>
      refine ⟨h.trans hcomes.change.calm, fun cause hfatal => hcomes.managed cause ?_⟩
      exact Except.error.inj hfatal

end Code

/-! ## Workers -/

/-- A worker leaves alone what a method leaves alone. -/
theorem calm_runTask (rt : Runtime) (task : Task) : rt.Calm (rt.runTask task) := by
  unfold Runtime.runTask
  split
  dsimp only
  split <;> exact ⟨rfl, rfl, rfl, rfl⟩

theorem calm_work {rt rt' : Runtime} (h : rt.work? = some rt') : rt.Calm rt' := by
  unfold Runtime.work? at h
  split at h
  · exact absurd h nofun
  · rename_i task rest _
    obtain rfl := Option.some.inj h
    obtain ⟨hrefs, hpending, hphase, hattach⟩ := calm_runTask { rt with tasks := rest } task
    exact ⟨hrefs, hpending, hphase, hattach⟩

end GridBridge.Managed
