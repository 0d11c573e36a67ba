import GridBridge.Proofs.Bridge.Operations
import GridBridge.Proofs.Managed.Deeds

/-!
# Operations on a desk: what they give, exactly

One lemma for each operation on a started loopback runtime without injected faults. From the desk
that the runtime shows it says whether the operation succeeds, what it gives and which desk it leaves.
An operation that fails leaves grid, tasks and durable references as they were (`Retains`).
-/

namespace GridBridge.Bridge

open Protocol Seam Seam.Script Managed

variable {files : Files.FileSystem} {thread : ThreadId} {desk : Desk} {rt : Runtime} {ctx : Context}
  {d : Descriptors} {α : Type}

/-! ## Methods -/

/-- The method identifiers were found on their classes. -/
def Found (d : Descriptors) : Prop := ∀ m ∈ d.looked, findMethod m.1 m.2.1 = some m.2.2

/-- A method that was found does what the methods of its name and signature do. -/
theorem Found.entry (h : Found d) (name : String) (spec : MethodSpec) (id : MethodId)
    (behaviour : Behaviour) (hlooked : (name, spec, id) ∈ d.looked)
    (hdoes : ∀ e ∈ methodTable, e.spec = spec → e.behaviour = behaviour) :
    ∃ entry, methodEntry? id = some entry ∧ entry.behaviour = behaviour := by
  obtain ⟨entry, hfound, hsame, _⟩ := findMethod_eq_some (h _ hlooked)
  refine ⟨entry, hfound, hdoes entry ?_ hsame⟩
  unfold methodEntry? at hfound
  split at hfound
  · cases hfound
  · exact List.mem_of_getElem? hfound

/-! ## Reading faults -/

/-- Looking at an exception with the accessors that were found is harmless. -/
theorem harmless_of_looking (hfound : Found d) {request : Call}
    (hlooks : Looking [d.classGetName, d.throwableGetMessage] request) : Harmless request := by
  cases request with
  | callObject obj method args =>
    obtain rfl | rfl : method = d.classGetName ∨ method = d.throwableGetMessage := by
      simpa [Looking] using hlooks
    · obtain ⟨entry, hmethod, hdoes⟩ := hfound.entry ClassName.cls Method.getName
        d.classGetName .classGetName (by simp [Descriptors.looked]) (by decide)
      exact ⟨entry, hmethod, by rw [hdoes]; rfl⟩
    · obtain ⟨entry, hmethod, hdoes⟩ := hfound.entry ClassName.throwable Method.getMessage
        d.throwableGetMessage .throwableGetMessage (by simp [Descriptors.looked]) (by decide)
      exact ⟨entry, hmethod, by rw [hdoes]; rfl⟩
  | _ => exact hlooks

/-- To take a fault and report it takes harmless calls only. -/
theorem makes_fault (hfound : Found ctx.descriptors) : ctx.fault.Makes Harmless fun _ => True :=
  .bind ((looking_takeFault ctx.descriptors ctx.describeFaults).mono_calls fun _ =>
    harmless_of_looking hfound) fun fault =>
    .bind (.tell trivial) fun _ => .pure fault

/-! ## Names -/

/-- A name that crosses the boundary: none, or one without a NUL in it. -/
def Passes (name : Option String) : Prop := ∀ text, name = some text → '\x00' ∉ text.toList

@[simp] theorem passes_none : Passes none := by simp [Passes]

instance : DecidablePred Passes
  | none => isTrue nofun
  | some text => decidable_of_iff ('\x00' ∉ text.toList) (by simp [Passes])

section Operations

variable {Q : α → Runtime → Prop} {E : BridgeError → Runtime → Prop}

namespace Context

/-- Attaching leaves the desk as it is. -/
theorem wp_attach_on (h : Shows files thread desk rt) {Q : Unit → Runtime → Prop}
    (hok : ∀ rt', Shows files thread desk rt' → Q () rt') :
    Operation.wp (loopback thread) Context.attach Q E rt :=
  Operation.wp_lift_bind.mpr (Managed.wp_attach h fun rt' h' => hok rt' h')

/-- A text without a NUL becomes a local reference, and another one makes no call. -/
theorem wp_newString_on (h : Shows files thread desk rt) {text : String}
    {Q : Ref → Runtime → Prop}
    (hok : Passes (some text) → ∀ r rt', Shows files thread
      { desk with locals := (r, some (.str text)) :: desk.locals } rt' → Q r rt')
    (herror : ¬ Passes (some text) → ∀ e, E e rt) :
    Operation.wp (loopback thread) (ctx.newString text) Q E rt := by
  unfold newString
  split
  · rename_i hnul
    refine herror (fun hpasses => hpasses text rfl ?_) _
    exact List.contains_iff_mem.mp hnul
  · rename_i hclean
    -- no NUL was found, so the call is made and nothing can go wrong with it
    have hpasses : Passes (some text) := by
      rintro _ ⟨⟩ hnul
      exact hclean (List.contains_iff_mem.mpr hnul)
    refine Operation.wp_lift_bind.mpr (Managed.wp_newString h ?_)
    intro r rt' hnonnull h'
    rw [hnonnull]
    exact hok hpasses r rt' h'

/-- A name that is none is the null reference. -/
theorem wp_nameString_on (h : Shows files thread desk rt) {name : Option String}
    {Q : Ref → Runtime → Prop}
    (hok : Passes name → ∀ r rt', Shows files thread
      { desk with locals := (r, name.map .str) :: desk.locals } rt' → Q r rt')
    (herror : ¬ Passes name → ∀ e, E e rt) :
    Operation.wp (loopback thread) (ctx.nameString name) Q E rt := by
  cases name with
  | none => exact hok nofun _ _ h.madeNone
  | some text => exact wp_newString_on h hok herror

/-- Reading a fault leaves what the desk retains. -/
theorem wp_fault_on (hfound : Found ctx.descriptors) (h : Retains files thread desk rt)
    {Q : ManagedFault → Runtime → Prop}
    (hQ : ∀ fault rt', Retains files thread desk rt' → Q fault rt') :
    ctx.fault.wp (loopback thread) Q rt :=
  wp_mono (wp_retains (makes_fault hfound) h) hQ

/-- A check fails exactly if the last call raised. -/
theorem wp_checkFault_on (hfound : Found ctx.descriptors) (h : Shows files thread desk rt)
    {Q : Unit → Runtime → Prop}
    (hok : desk.raised = false → ∀ rt', Shows files thread desk rt' → Q () rt')
    (herror : desk.raised = true → ∀ e rt', Retains files thread desk rt' → E e rt') :
    Operation.wp (loopback thread) ctx.checkFault Q E rt := by
  unfold checkFault
  refine Operation.wp_lift_bind.mpr (wp_exceptionCheck h ?_)
  intro rt' h'
  cases hraised : desk.raised with
  | false => exact hok hraised rt' h'
  | true =>
    refine Operation.wp_lift_bind.mpr (wp_fault_on hfound h'.retains ?_)
    exact fun fault rt'' hretains => herror hraised _ rt'' hretains

end Context

/-! ## Opening instances and caches -/

/-- A reference that leads to an object is made durable. -/
theorem Handle.wp_promote_on (h : Shows files thread desk rt) {found : Ref} {object : Object}
    {cls : TargetClass} {rest : List (Ref × Option Object)} {Q : Handle → Runtime → Prop}
    (hlocals : desk.locals = (found, some object) :: rest)
    (hok : ∀ target rt', Shows files thread
      { desk with owned := (target, object) :: desk.owned, locals := rest } rt' →
      Q { target, cls } rt') :
    Operation.wp (loopback thread) (promote ctx found cls) Q E rt := by
  have hmem : (found, some object) ∈ desk.locals := by simp [hlocals]
  have hnonnull : found.isNull = false := (h.locals _ hmem).not_null h.sound
  unfold promote
  rw [hnonnull]
  refine Operation.wp_lift_bind.mpr ?_
  -- the durable reference is made first, and the local one is given back whatever came of it
  refine Managed.wp_newGlobalRef h (Desk.means_local hmem) ?_
  intro target rt' hnonnull' h'
  refine Operation.wp_lift_bind.mpr ?_
  refine Managed.wp_deleteLocalRef h' [] hlocals ?_
  intro rt'' h''
  rw [hnonnull']
  exact hok target rt'' h''

namespace Instance

/-- What came back of a start without an exception is there. -/
theorem wp_requireStarted_ok (h : Shows files thread desk rt) {r : Ref} {object : Object}
    {Q : Unit → Runtime → Prop} (hclear : desk.raised = false) (hmem : (r, some object) ∈ desk.locals)
    (hok : ∀ rt', Shows files thread desk rt' → Q () rt') :
    Operation.wp (loopback thread) (requireStarted ctx r) Q E rt := by
  unfold requireStarted
  refine Operation.wp_lift_bind.mpr (wp_exceptionCheck h ?_)
  intro rt' h'
  rw [hclear, (h.locals _ hmem).not_null h.sound]
  exact hok rt' h'

/-- A start that raised is told as a fault. -/
theorem wp_requireStarted_raised (hmethods : Found ctx.descriptors) (h : Shows files thread desk rt)
    {r : Ref} {Q : Unit → Runtime → Prop} (hraised : desk.raised = true)
    (herror : ∀ e rt', Retains files thread desk rt' → E e rt') :
    Operation.wp (loopback thread) (requireStarted ctx r) Q E rt := by
  unfold requireStarted
  refine Operation.wp_lift_bind.mpr (wp_exceptionCheck h ?_)
  intro rt' h'
  rw [hraised]
  refine Operation.wp_lift_bind.mpr (Context.wp_fault_on hmethods h'.retains ?_)
  exact fun fault rt'' hretains => herror _ rt'' hretains

/-- The object of a running instance is entered through its processor. -/
theorem wp_enter_on (hmethods : Found ctx.descriptors) (h : Shows files thread desk rt)
    (hclear : desk.raised = false) {found : Ref} {instanceName : Option String} {name : String}
    {rest : List (Ref × Option Object)} {Q : Instance → Runtime → Prop}
    (hlocals : desk.locals = (found, some (.grid instanceName)) :: rest)
    (hrunning : desk.grid.isRunning instanceName = true)
    (hok : ∀ target rt', Shows files thread { desk with
      owned := (target, .processor instanceName) :: desk.owned, locals := rest, raised := false } rt' →
      Q { handle := { target, cls := .processor }, name } rt') :
    Operation.wp (loopback thread) (enter ctx found name) Q E rt := by
  obtain ⟨entry, hmethod, hdoes⟩ := hmethods.entry ClassName.interopUtils Method.interop
    ctx.descriptors.interopUtilsInterop .utilsInterop (by simp [Descriptors.looked]) (by decide)
  have hmem : (found, some (.grid instanceName)) ∈ desk.locals := by simp [hlocals]
  unfold enter
  refine Operation.wp_lift_bind.mpr ?_
  refine Managed.wp_callStatic h hmethod (.cons (Desk.means_local hmem) .nil)
    (by rw [hdoes]; exact does_interop hrunning) hclear ?_
  intro processor rt₁ h₁
  refine Operation.wp_lift_bind.mpr ?_
  refine Managed.wp_deleteLocalRef h₁ [(processor, _)] (congrArg _ hlocals) ?_
  intro rt₂ h₂
  -- the processor is there and nothing was raised, so it can be promoted
  refine Operation.wp_bind.mpr (wp_requireStarted_ok h₂ rfl (List.mem_cons_self ..) ?_)
  exact fun rt₃ h₃ => Operation.wp_bind.mpr (Handle.wp_promote_on h₃ rfl hok)

variable {grid : Grid} {tasks : List Task} {owned : List (Ref × Object)}

/-- An instance is found if one of that name is running, and only then. -/
theorem wp_find_on (hmethods : Found ctx.descriptors)
    (h : Shows files thread { grid, tasks, owned } rt) {name : String} {Q : Instance → Runtime → Prop}
    (hok : Passes (wireName name) → grid.isRunning (wireName name) = true → ∀ target rt',
      Shows files thread { grid, tasks, owned := (target, .processor (wireName name)) :: owned } rt' →
      Q { handle := { target, cls := .processor }, name } rt')
    (herror : ¬ (Passes (wireName name) ∧ grid.isRunning (wireName name) = true) → ∀ e rt',
      Retains files thread { grid, tasks, owned } rt' → E e rt') :
    Operation.wp (loopback thread) (find ctx name) Q E rt := by
  obtain ⟨entry, hmethod, hdoes⟩ := hmethods.entry ClassName.ignition Method.ignite
    ctx.descriptors.ignitionIgnite .ignitionIgnite (by simp [Descriptors.looked]) (by decide)
  unfold find
  refine Operation.wp_bind.mpr (Context.wp_attach_on h ?_)
  intro rt₁ h₁
  refine Operation.wp_bind.mpr (Context.wp_nameString_on h₁ ?_ ?_)
  swap
  · exact fun hrefused e => herror (fun hboth => hrefused hboth.1) e rt₁ h₁.retains
  intro hpasses nameRef rt₂ h₂
  refine Operation.wp_lift_bind.mpr ?_
  cases hrunning : grid.isRunning (wireName name) with
  | true =>
    -- what is found is entered through its processor
    refine Managed.wp_callStatic h₂ hmethod (.cons (Desk.means_local (List.mem_cons_self ..)) .nil)
      (by rw [hdoes]; exact does_findInstance hrunning) rfl ?_
    intro found rt₃ h₃
    refine Operation.wp_lift_bind.mpr ?_
    refine Managed.wp_deleteLocalRef h₃ [(found, _)] rfl ?_
    intro rt₄ h₄
    refine Operation.wp_bind.mpr (wp_requireStarted_ok h₄ rfl (List.mem_cons_self ..) ?_)
    exact fun rt₅ h₅ => wp_enter_on hmethods h₅ rfl rfl hrunning (hok hpasses hrunning)
  -- what is raised is read, and the desk retains what it had
  | false =>
    obtain ⟨thrown, hfails⟩ := does_not_findInstance files thread
      { grid, tasks, owned, locals := [(nameRef, (wireName name).map .str)] } hrunning
    refine Managed.wp_callStatic h₂ hmethod (.cons (Desk.means_local (List.mem_cons_self ..)) .nil)
      (by rw [hdoes]; exact hfails) rfl ?_
    intro found rt₃ h₃
    refine Operation.wp_lift_bind.mpr ?_
    refine Managed.wp_deleteLocalRef h₃ [(found, _)] rfl ?_
    intro rt₄ h₄
    refine Operation.wp_bind.mpr (wp_requireStarted_raised hmethods h₄ rfl ?_)
    exact herror (by simp [hrunning])

/-- An instance is started from a file that is there, under a name that is not running, and only then. -/
theorem wp_start_on (hmethods : Found ctx.descriptors)
    (h : Shows files thread { grid, tasks, owned } rt) {path name : String}
    {Q : Instance → Runtime → Prop}
    (hok : Passes (some path) → Passes (wireName name) → files.isFile (.ofString path) = true →
      grid.isRunning (wireName name) = false → ∀ target rt', Shows files thread
        { grid := grid.start (wireName name) path, tasks,
          owned := (target, .processor (wireName name)) :: owned } rt' →
      Q { handle := { target, cls := .processor }, name } rt')
    (herror : ¬ (Passes (some path) ∧ Passes (wireName name) ∧ files.isFile (.ofString path) = true ∧
      grid.isRunning (wireName name) = false) → ∀ e rt',
      Retains files thread { grid, tasks, owned } rt' → E e rt') :
    Operation.wp (loopback thread) (start ctx path name) Q E rt := by
  obtain ⟨entry, hmethod, hdoes⟩ := hmethods.entry ClassName.ignitionEx Method.startWithClosure
    ctx.descriptors.ignitionExStart .ignitionExStart (by simp [Descriptors.looked]) (by decide)
  unfold start
  refine Operation.wp_bind.mpr (Context.wp_attach_on h ?_)
  intro rt₁ h₁
  refine Operation.wp_bind.mpr (Context.wp_newString_on h₁ ?_ ?_)
  swap
  · exact fun hrefused e => herror (fun hall => hrefused hall.1) e rt₁ h₁.retains
  intro hpathPasses config rt₂ h₂
  refine Operation.wp_bind.mpr (Operation.wp_tryCatch.mpr ?_)
  refine Context.wp_nameString_on h₂ ?_ ?_
  swap
  · -- the name could not be made: the first string still has to be given back
    intro hrefused e
    refine Operation.wp_lift_bind.mpr (Managed.wp_deleteLocalRef h₂ [] rfl ?_)
    exact fun rt₃ h₃ => herror (fun hall => hrefused hall.2.1) e rt₃ h₃.retains
  intro hnamePasses nameRef rt₃ h₃
  -- whatever comes back, the two strings are given back in the order in which they were made
  have hcall {outcome : Except Stop CallValue} {grid' : Grid} (hdoes' : Does files thread
        { grid, tasks, owned, locals := [(nameRef, (wireName name).map .str),
          (config, some (.str path))] }
        .ignitionExStart none
        [.object (some (.str path)), .object ((wireName name).map .str), .object none] outcome
        { grid := grid', tasks, owned,
          locals := [(nameRef, (wireName name).map .str), (config, some (.str path))] })
      (hrest : ∀ found rt₄, Shows files thread
          { grid := grid', tasks, owned,
            locals := [(found, objectOf outcome)], raised := raises outcome } rt₄ →
        Operation.wp (loopback thread) (do requireStarted ctx found; enter ctx found name) Q E rt₄) :
      Operation.wp (loopback thread) (do
        let found ← Script.ask (.callStatic ctx.descriptors.ignitionEx ctx.descriptors.ignitionExStart
          [.object config, .object nameRef, .object .null])
        Script.ask (.deleteLocalRef config)
        Script.ask (.deleteLocalRef nameRef)
        requireStarted ctx found
        enter ctx found name) Q E rt₃ := by
    refine Operation.wp_lift_bind.mpr (Managed.wp_callStatic h₃ hmethod (.cons
      (Desk.means_local (List.mem_cons_of_mem _ (List.mem_cons_self ..))) (.cons
        (Desk.means_local (List.mem_cons_self ..)) (.cons (Desk.means_null _) .nil)))
      (by rw [hdoes]; exact hdoes') rfl ?_)
    intro found rt₄ h₄
    refine Operation.wp_lift_bind.mpr
      (Managed.wp_deleteLocalRef h₄ [(found, _), (nameRef, _)] rfl ?_)
    intro rt₅ h₅
    refine Operation.wp_lift_bind.mpr (Managed.wp_deleteLocalRef h₅ [(found, _)] rfl ?_)
    exact fun rt₆ h₆ => hrest found rt₆ h₆
  -- the two conditions that the managed side looks at
  by_cases hstarts : files.isFile (.ofString path) = true ∧ grid.isRunning (wireName name) = false
  · obtain ⟨hfile, hrunning⟩ := hstarts
    refine hcall (does_startInstance hfile hrunning) fun found rt₄ h₄ => ?_
    refine Operation.wp_bind.mpr (wp_requireStarted_ok h₄ rfl (List.mem_cons_self ..) ?_)
    -- the name is running from now on, so the instance is entered
    have hruns : (grid.start (wireName name) path).isRunning (wireName name) = true := by simp
    exact fun rt₅ h₅ => wp_enter_on hmethods h₅ rfl rfl hruns (hok hpathPasses hnamePasses hfile
      hrunning)
  · have hrefused : files.isFile (.ofString path) = false ∨ grid.isRunning (wireName name) = true := by
      by_cases hfile : files.isFile (.ofString path) = true
      · exact .inr (by simpa [hfile] using hstarts)
      · exact .inl (by simpa using hfile)
    obtain ⟨thrown, hfails⟩ := does_not_startInstance thread { grid, tasks, owned, locals :=
      [(nameRef, (wireName name).map .str), (config, some (.str path))] } [.object none] hrefused
    refine hcall hfails fun found rt₄ h₄ => ?_
    refine Operation.wp_bind.mpr (wp_requireStarted_raised hmethods h₄ rfl ?_)
    exact herror fun hall => hstarts hall.2.2

/-- A cache is looked up by any name that is not empty. -/
theorem wp_cache_on (hmethods : Found ctx.descriptors)
    (h : Shows files thread { grid, tasks, owned } rt) {i : Instance}
    {instanceName name : Option String}
    {running : GridInstance} {store : StoreId} {grid' : Grid} {Q : Cache → Runtime → Prop}
    (htarget : (i.handle.target, .processor instanceName) ∈ owned)
    (hfound : grid.instance? instanceName = some running)
    (hopened : grid.openCache instanceName running name = (store, grid'))
    (hok : Passes name → name ≠ some "" → ∀ target rt',
      Shows files thread { grid := grid', tasks, owned := (target, .cache store) :: owned } rt' →
      Q { handle := { target, cls := .cache }, name } rt')
    (herror : ¬ (Passes name ∧ name ≠ some "") → ∀ e rt',
      Retains files thread { grid, tasks, owned } rt' → E e rt') :
    Operation.wp (loopback thread) (i.cache (some ctx) name) Q E rt := by
  obtain ⟨entry, hmethod, hdoes⟩ := hmethods.entry ClassName.interopProcessor Method.cache
    ctx.descriptors.interopProcessorCache .processorCache (by simp [Descriptors.looked]) (by decide)
  unfold cache
  refine Operation.wp_bind.mpr (Operation.wp_pure.mpr ?_)
  refine Operation.wp_bind.mpr (Context.wp_attach_on h ?_)
  intro rt₁ h₁
  refine Operation.wp_bind.mpr (Context.wp_nameString_on h₁ ?_ ?_)
  swap
  · exact fun hrefused e => herror (fun hboth => hrefused hboth.1) e rt₁ h₁.retains
  intro hpasses nameRef rt₂ h₂
  refine Operation.wp_lift_bind.mpr ?_
  by_cases hnamed : name = some ""
  -- for an empty name nothing comes back
  · subst hnamed
    refine Managed.wp_callObject h₂ hmethod (Desk.means_owned htarget)
      (.cons (Desk.means_local (List.mem_cons_self ..)) .nil)
      (by rw [hdoes]; exact does_openCache_unnamed) rfl ?_
    intro object rt₃ h₃
    refine Operation.wp_lift_bind.mpr (Managed.wp_deleteLocalRef h₃ [(object, _)] rfl ?_)
    intro rt₄ h₄
    refine Operation.wp_bind.mpr (Context.wp_checkFault_on hmethods h₄ ?_ (absurd · Bool.false_ne_true))
    intro _ rt₅ h₅
    -- null is no cache, so the opening is refused
    obtain rfl : object = .null := h₅.locals _ (List.mem_cons_self ..)
    exact herror (fun hboth => hboth.2 rfl) _ rt₅ h₅.retains
  · refine Managed.wp_callObject h₂ hmethod (Desk.means_owned htarget)
      (.cons (Desk.means_local (List.mem_cons_self ..)) .nil)
      (by rw [hdoes]; exact does_openCache hfound hnamed hopened) rfl ?_
    intro object rt₃ h₃
    refine Operation.wp_lift_bind.mpr (Managed.wp_deleteLocalRef h₃ [(object, _)] rfl ?_)
    intro rt₄ h₄
    refine Operation.wp_bind.mpr (Context.wp_checkFault_on hmethods h₄ ?_ (absurd · Bool.false_ne_true))
    intro _ rt₅ h₅
    have hnonnull := (h₅.locals _ (List.mem_cons_self ..)).not_null h₅.sound
    rw [hnonnull]
    exact Operation.wp_bind.mpr (Handle.wp_promote_on h₅ rfl (hok hpasses hnamed))

end Instance

/-! ## Calls on caches -/

/-- The request that the bridge writes for a call. -/
def requestOf : CacheCall → Codec.Writer
  | .put key value => Cache.putRequest key value
  | .remove key => Cache.keyRequest key
  | .size => Cache.emptyRequest

/-- The request holds exactly the fields of the call. -/
theorem exactly_requestOf (call : CacheCall) : (requestOf call).Exactly call.fields := by
  cases call with
  | put key value => exact (Codec.Writer.exactly_ofCapacity 8 (by decide)).writeAll _
  | remove key => exact (Codec.Writer.exactly_ofCapacity 4 (by decide)).write (.int key)
  | size => exact Codec.Writer.exactly_ofCapacity 1 (by decide)

/-- Code, address and length of the request of a call. -/
def argsOf (call : CacheCall) : List Arg :=
  [.int call.op.code, .long (.buffer call.wire), .int (Int32.ofNat call.wire.length)]

/-- So it goes over the wire by its address and its length. -/
theorem wireArgs_requestOf (call : CacheCall) :
    Handle.wireArgs call.op (requestOf call) = .ok (argsOf call) := by
  have hexactly := exactly_requestOf call
  have hlength : (requestOf call).position = call.wire.length := by
    rw [hexactly.position, CacheCall.wire, Codec.length_wire]
  -- the longest request has eight bytes
  have hshort : call.wire.length ≤ Handle.maxRequestLength := by
    rw [call.length_wire]
    cases call <;> simp [CacheCall.op, Opcode.requestLength, Handle.maxRequestLength]
  unfold Handle.wireArgs
  rw [hlength, if_pos hshort, hexactly.bytes]
  rfl

/-- On the managed side they mean what the method is to do. -/
theorem means_argsOf (desk : Desk) (call : CacheCall) :
    List.Forall₂ desk.Means (argsOf call) call.args := .cons rfl (.cons rfl (.cons rfl .nil))

namespace Handle

variable {handle : Handle} {store : StoreId} (call : CacheCall)

/-- With the operation supported and the class right, preparing a call gives its arguments. -/
theorem wp_prepare_on (h : Shows files thread desk rt) (hcls : handle.cls = .cache) {shape : Shape}
    (hsupported : call.op.supports shape = true) {Q : Context × List Arg → Runtime → Prop}
    (hok : ∀ rt', Shows files thread desk rt' → Q (ctx, argsOf call) rt') :
    Operation.wp (loopback thread) (handle.prepare (some ctx) call.op shape (requestOf call)) Q E
      rt := by
  have hcheck : call.op.check handle.cls shape = .ok () := by
    rw [hcls]
    cases call <;> cases shape <;> first | rfl | cases hsupported
  unfold prepare
  refine Operation.wp_bind.mpr (Operation.wp_liftExcept.mpr ?_)
  rw [hcheck]
  refine Operation.wp_bind.mpr (Operation.wp_pure.mpr ?_)
  refine Operation.wp_bind.mpr (Context.wp_attach_on h ?_)
  intro rt' h'
  refine Operation.wp_bind.mpr (Operation.wp_liftExcept.mpr ?_)
  rw [wireArgs_requestOf]
  exact hok rt' h'

variable (hmethods : Found ctx.descriptors) (h : Shows files thread desk rt)
  (hclear : desk.raised = false) (hcls : handle.cls = .cache)
  (htarget : (handle.target, .cache store) ∈ desk.owned)
include hmethods h hclear hcls htarget

/-- A call that waits for a 32-bit reply is carried out. -/
theorem wp_inOp_on (hsupported : call.op.supports .inOp = true) {Q : Int32 → Runtime → Prop}
    (hok : ∀ rt', Shows files thread (desk.done call store) rt' →
      Q (call.apply (desk.grid.contents store)).2.toInt32 rt') :
    Operation.wp (loopback thread) (handle.inOp (some ctx) call.op (requestOf call)) Q E rt := by
  obtain ⟨entry, hmethod, hdoes⟩ := hmethods.entry ClassName.interopTarget Method.inOp
    ctx.descriptors.interopTargetInOp .targetInOp (by simp [Descriptors.looked]) (by decide)
  unfold inOp
  refine Operation.wp_bind.mpr (wp_prepare_on call h hcls hsupported ?_)
  intro rt₁ h₁
  refine Operation.wp_lift_bind.mpr (Managed.wp_callInt h₁ hmethod (Desk.means_owned htarget)
    (means_argsOf desk call) (by rw [hdoes]; exact does_inOp call hsupported) ?_)
  intro rt₂ h₂
  refine Operation.wp_bind.mpr (Context.wp_checkFault_on hmethods h₂ (fun _ => hok) ?_)
  exact fun hraised => absurd (hclear.symm.trans hraised) Bool.false_ne_true

/-- A call that waits for a 64-bit reply is carried out. -/
theorem wp_inOutOp_on (hsupported : call.op.supports .inOut = true) {Q : UInt64 → Runtime → Prop}
    (hok : ∀ rt', Shows files thread (desk.done call store) rt' →
      Q (call.apply (desk.grid.contents store)).2.toUInt64 rt') :
    Operation.wp (loopback thread) (handle.inOutOp (some ctx) call.op (requestOf call)) Q E rt := by
  obtain ⟨entry, hmethod, hdoes⟩ := hmethods.entry ClassName.interopTarget Method.inOutOp
    ctx.descriptors.interopTargetInOutOp .targetInOutOp (by simp [Descriptors.looked]) (by decide)
  unfold inOutOp
  refine Operation.wp_bind.mpr (wp_prepare_on call h hcls hsupported ?_)
  intro rt₁ h₁
  refine Operation.wp_lift_bind.mpr (Managed.wp_callLong h₁ hmethod (Desk.means_owned htarget)
    (means_argsOf desk call) (by rw [hdoes]; exact does_inOutOp call hsupported) ?_)
  intro rt₂ h₂
  refine Operation.wp_bind.mpr (Context.wp_checkFault_on hmethods h₂ (fun _ => hok) ?_)
  exact fun hraised => absurd (hclear.symm.trans hraised) Bool.false_ne_true

/-- A call whose completion comes later is queued. -/
theorem wp_inOutOpAsync_on (hsupported : call.op.supports .inOutAsync = true) {callback : Callback}
    {data : UInt64} {Q : Unit → Runtime → Prop}
    (hok : ∀ rt', Shows files thread { desk with
        tasks := desk.tasks ++ [call.task store (.callback callback) (.ofNat64 data)] } rt' →
      Q () rt') :
    Operation.wp (loopback thread)
      (handle.inOutOpAsync (some ctx) call.op (requestOf call) callback data) Q E rt := by
  obtain ⟨entry, hmethod, hdoes⟩ := hmethods.entry ClassName.interopTarget Method.inOutOpAsync
    ctx.descriptors.interopTargetInOutOpAsync .targetInOutOpAsync (by simp [Descriptors.looked])
    (by decide)
  have hmeans : List.Forall₂ desk.Means
      (argsOf call ++ [.long (.callback callback), .long (.ofNat64 data)])
      (call.args ++ [.long (.callback callback), .long (.ofNat64 data)]) :=
    .cons rfl (.cons rfl (.cons rfl (.cons rfl (.cons rfl .nil))))
  unfold inOutOpAsync
  refine Operation.wp_bind.mpr (wp_prepare_on call h hcls hsupported ?_)
  intro rt₁ h₁
  -- the method only puts a task in the queue, and its check finds nothing
  refine Operation.wp_lift_bind.mpr (Managed.wp_callVoid h₁ hmethod (Desk.means_owned htarget) hmeans
    (by rw [hdoes]; exact does_inOutOpAsync call hsupported) ?_)
  intro rt₂ h₂
  refine Context.wp_checkFault_on hmethods h₂ (fun _ => hok) ?_
  exact fun hraised => absurd (hclear.symm.trans hraised) Bool.false_ne_true

end Handle

end Operations

end GridBridge.Bridge
