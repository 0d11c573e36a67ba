import GridBridge.Proofs.Bridge.Exact
import GridBridge.Proofs.Bridge.Translation
import GridBridge.Proofs.Managed.Atomic
import GridBridge.Proofs.Managed.Plays

/-!
# What is taken for a pending exception, exactly

On the loopback runtime the message accessor raises as often as faults are injected into it. One look at
the pending exception either reads it or leaves the exception of the accessor in its place
(`gives_takeFaultOnce`), and so the number of injected faults says how many looks are taken and what they
come to (`gives_takeFaultWithin`). **`takeFault_exact`** puts this together: the fault that is reported,
and everything that has changed in the runtime.
-/

namespace GridBridge.Managed

/-! ## Faults of the message accessor -/

namespace Budget

/-- Units that are there to be used, and at most so many. -/
def upTo (limit : Nat) : Budget → Nat
  | .count left => min left limit
  | .endless => limit

/-- The budget after so many units were used. -/
def less (used : Nat) : Budget → Budget
  | .count left => .count (left - used)
  | .endless => .endless

variable {budget left : Budget}

theorem eq_of_take?_none (h : budget.take? = none) : budget = .count 0 := by
  cases budget with
  | count units =>
    cases units with
    | zero => rfl
    | succ units => cases h
  | endless => cases h

/-- Where a unit is used, one unit more was there. -/
theorem of_take? (h : budget.take? = some left) (more : Nat) :
    budget.upTo (more + 1) = left.upTo more + 1 ∧ budget.less (more + 1) = left.less more := by
  cases budget with
  | count units =>
    cases units with
    | zero => cases h
    | succ units =>
      cases h
      exact ⟨Nat.succ_min_succ .., congrArg Budget.count (Nat.succ_sub_succ ..)⟩
  | endless =>
    cases h
    exact ⟨rfl, rfl⟩

end Budget

/-- The runtime after what was pending on the thread was taken off it: so many references were made and
given back, so many exceptions shown in the log, and message faults used up. -/
def Runtime.taken (rt : Runtime) (thread : ThreadId) (made shown : Nat) (left : Budget) : Runtime :=
  { rt.clearPending thread with
    refs := { rt.refs with next := rt.refs.next + made }
    described := rt.described + shown
    faults := { rt.faults with messageFaults := left } }

/-- What is raised in place of what was taken, and taken in turn. -/
theorem Runtime.taken_raise (rt : Runtime) (thread : ThreadId) (made made' shown shown' : Nat)
    (left left' : Budget) (thrown : Thrown) :
    ((rt.taken thread made shown left).raise thread thrown).taken thread made' shown' left' =
      rt.taken thread (made + made') (shown + shown') left' := by
  have hpending : ((thread, thrown) :: (rt.pending.filter (·.1 != thread)).filter
    (·.1 != thread)).filter
      (·.1 != thread) = rt.pending.filter (·.1 != thread) := by
    rw [List.filter_cons_of_neg (by simp), List.filter_filter, List.filter_filter]
    simp only [Bool.and_self]
  unfold taken raise clearPending
  simp only [hpending, Nat.add_assoc]

/-- What the message accessor throws when a fault is injected into it. -/
def outOfHeap : Thrown := { cls := .outOfMemory, message := "Java heap space" }

end GridBridge.Managed

namespace GridBridge.Bridge

open Protocol Seam Seam.Script Managed

variable {thread : ThreadId} {rt : Runtime} {d : Descriptors} {r : Ref} {object : Object}
  {thrown : Thrown}

/-- A method that was found is one of this name and signature that the class declares or inherits. -/
theorem Found.method (h : Found d) (name : String) (spec : MethodSpec) (id : MethodId)
    (behaviour : Behaviour) (hlooked : (name, spec, id) ∈ d.looked)
    (hdoes : ∀ e ∈ methodTable, e.spec = spec → e.behaviour = behaviour) :
    ∃ entry, methodEntry? id = some entry ∧ entry.spec = spec ∧ entry.behaviour = behaviour ∧
      isSubclass name entry.cls = true := by
  obtain ⟨entry, hfound, hsame, hinherits⟩ := findMethod_eq_some (h _ hlooked)
  refine ⟨entry, hfound, hsame, hdoes entry ?_ hsame, hinherits⟩
  unfold methodEntry? at hfound
  split at hfound
  · cases hfound
  · exact List.mem_of_getElem? hfound

/-! ## Reading strings and names -/

theorem gives_takeString {text : String} {rest : List LiveRef} (hsound : rt.refs.Sound)
    (hlive : rt.refs.live = ⟨r, .localRef, .str text⟩ :: rest) :
    Gives thread rt (takeString r) (some text)
      { rt with refs := { rt.refs with live := rest } } := by
  have hmem : (⟨r, .localRef, .str text⟩ : LiveRef) ∈ rt.refs.live := by simp [hlive]
  have hrefers : Refers rt r (some (.str text)) := hsound.refers hmem
  have hnonnull : r.isNull = false := hsound.not_null (RefTable.mem_tokens.mpr ⟨_, hmem, rfl, rfl⟩)
  unfold takeString
  rw [hnonnull]
  exact gives_ask_bind (run_getString hrefers) rfl <|
    gives_ask_bind (run_deleteLocalRef [] hsound hlive) rfl <| gives_done _

/-- The class name of an object is read, and the references made for it are given back. -/
theorem gives_classNameOf (hfound : Found d) (hsound : rt.refs.Sound)
    (hroom : rt.refs.next + 2 ≤ 2 ^ 64)
    (hclear : rt.pending? thread = none) (hrefers : Refers rt r (some object)) :
    Gives thread rt (classNameOf d.classGetName r) (some (dotted object.className))
      { rt with refs := { rt.refs with next := rt.refs.next + 2 } } := by
  obtain ⟨entry, hmethod, hspec, hdoes, -⟩ := hfound.method ClassName.cls Method.getName d.classGetName
    .classGetName (by simp [Descriptors.looked]) (by decide)
  have hroom₀ : rt.refs.next < 2 ^ 64 := by omega
  -- the class, and above it the name that it gives
  let rt₁ := rt.withLocal (.cls object.className)
  let rt₂ := rt₁.withLocal (.str (dotted object.className))
  let rt₃ : Runtime := { rt₂ with refs := { rt₂.refs with
    live := [⟨rt₁.refs.token, .localRef, .str (dotted object.className)⟩] ++ rt.refs.live } }
  have hsound₁ : rt₁.refs.Sound := hsound.insert hroom₀ _ _
  have hsound₂ : rt₂.refs.Sound := hsound₁.insert (show rt.refs.next + 1 < 2 ^ 64 from hroom) _ _
  have hsound₃ : rt₃.refs.Sound := hsound₂.fewer ((List.sublist_cons_self ..).cons_cons _)
  have hclear₁ : rt₁.pending? thread = none := hclear
  have hunraised : (rt₃.pending? thread).isSome = false := congrArg Option.isSome hclear
  have hself : Refers rt₁ rt.refs.token (some (.cls object.className)) :=
    hsound₁.refers (List.mem_cons_self ..)
  have hran : (Code.dispatch entry.behaviour (some (.cls object.className)) []).run.run rt₁ =
      (.ok (.object (some (.str (dotted object.className)))), rt₁) := by
    rw [hdoes]
    rfl
  have hcalled := run_callObject hclear₁ hmethod (by rw [hspec]; rfl) hself .nil hran
  have hdeleted : (answer thread (.deleteLocalRef rt.refs.token)).run.run rt₂ = (.ok (), rt₃) :=
    run_deleteLocalRef [_] hsound₂ rfl
  have hnonnull : rt.refs.token.isNull = false := hsound.token_not_null hroom₀
  unfold classNameOf
  refine gives_ask_bind (run_getObjectClass hrefers) rfl ?_
  rw [hnonnull]
  exact gives_ask_bind hcalled rfl <| gives_ask_bind hdeleted rfl <|
    gives_ask_bind (run_exceptionCheck hunraised) rfl (gives_takeString hsound₃ rfl)

/-! ## One look -/

/-- What is reported of an exception that could be read. -/
def reportOf (thrown : Thrown) : ManagedFault where
  message := thrown.message
  className := some (dotted thrown.cls.name)

/-- What one look comes to under a budget of message faults. -/
def lookOf (thrown : Thrown) (budget : Budget) : Attempt :=
  match budget.take? with
  | none => .read (reportOf thrown)
  | some _ => .raised (some (dotted thrown.cls.name))

/-- What one look leaves: nothing pending, or the exception of the message accessor. -/
def afterLook (rt : Runtime) (thread : ThreadId) (shown : Nat) : Runtime :=
  match rt.faults.messageFaults.take? with
  | none => rt.taken thread 4 shown rt.faults.messageFaults
  | some left => (rt.taken thread 3 shown left).raise thread outOfHeap

/-- How often an exception is shown in the log in so many looks. -/
def shownIn (looks : Nat) (describe : Bool) : Nat := if describe then looks else 0

/-- **The message of an exception that is held** is read, or its accessor raises. The exception is given
back either way. -/
theorem gives_readMessage (hfound : Found d) (hsound : rt.refs.Sound) (hroom : rt.refs.next < 2 ^ 64)
    {rest : List LiveRef} (hlive : rt.refs.live = ⟨r, .localRef, .throwable thrown⟩ :: rest)
    (hclear : rt.pending? thread = none) (className : Option String) :
    Gives thread rt (readMessage d r className)
      (match rt.faults.messageFaults.take? with
        | none => .read { message := thrown.message, className }
        | some _ => .raised className)
      (match rt.faults.messageFaults.take? with
        | none => { rt with refs := { live := rest, next := rt.refs.next + 1 } }
        | some left => Runtime.raise { rt with
            refs := { rt.refs with live := rest }
            faults := { rt.faults with messageFaults := left } } thread outOfHeap) := by
  obtain ⟨entry, hmethod, hspec, hdoes, -⟩ := hfound.method ClassName.throwable Method.getMessage
    d.throwableGetMessage .throwableGetMessage (by simp [Descriptors.looked]) (by decide)
  have hisInstance : entry.spec.isStatic = false := by rw [hspec]; rfl
  have hrefers : Refers rt r (some (.throwable thrown)) :=
    hsound.refers (hlive ▸ List.mem_cons_self ..)
  unfold readMessage
  cases htaken : rt.faults.messageFaults.take? with
  | none =>
    let given : Runtime := rt.withLocal (.str thrown.message)
    have hsound₁ : given.refs.Sound := hsound.insert hroom _ _
    have hran : (Code.dispatch entry.behaviour (some (.throwable thrown)) []).run.run rt =
        (.ok (.object (some (.str thrown.message))), rt) := by
      rw [hdoes, Code.run_getMessage, htaken]
    have hcalled := run_callObject hclear hmethod hisInstance hrefers .nil hran
    -- the message stands above the exception, which is given back first
    let message : LiveRef := ⟨rt.refs.token, .localRef, .str thrown.message⟩
    let alone : Runtime := { given with refs := { given.refs with live := [message] ++ rest } }
    have hstands : given.refs.live = [message] ++ ⟨r, .localRef, .throwable thrown⟩ :: rest :=
      congrArg (message :: ·) hlive
    have hdeleted : (answer thread (.deleteLocalRef r)).run.run given = (.ok (), alone) :=
      run_deleteLocalRef [message] hsound₁ hstands
    have hunraised : (alone.pending? thread).isSome = false := congrArg Option.isSome hclear
    have hfewer : ([message] ++ rest).Sublist given.refs.live :=
      hstands ▸ (List.sublist_cons_self ..).cons_cons _
    have hsound₂ : alone.refs.Sound := hsound₁.fewer hfewer
    exact gives_ask_bind hcalled rfl <| gives_ask_bind hdeleted rfl <|
      gives_ask_bind (run_exceptionCheck hunraised) rfl <|
      (gives_takeString hsound₂ rfl).bind (gives_done _)
  | some left =>
    let used : Runtime := { rt with faults := { rt.faults with messageFaults := left } }
    have hran : (Code.dispatch entry.behaviour (some (.throwable thrown)) []).run.run rt =
        (.error (.thrown outOfHeap), used) := by
      rw [hdoes, Code.run_getMessage, htaken]
      rfl
    have hcalled := run_callObject_thrown hclear hmethod hisInstance hrefers .nil hran
    let raised := Runtime.raise { used with refs := { rt.refs with live := rest } } thread outOfHeap
    have hdeleted : (answer thread (.deleteLocalRef r)).run.run (used.raise thread outOfHeap) =
        (.ok (), raised) := run_deleteLocalRef [] hsound hlive
    have hfound : (raised.pending? thread).isSome = true := by
      rw [Runtime.pending?_raise, if_pos rfl]
      rfl
    exact gives_ask_bind hcalled rfl <| gives_ask_bind hdeleted rfl <|
      gives_ask_bind (run_exceptionCheck hfound) rfl (gives_done _)

/-- **One look** reads the exception, or finds that the message accessor raises. -/
theorem gives_takeFaultOnce (hfound : Found d) (describe : Bool) (hsound : rt.refs.Sound)
    (hroom : rt.refs.next + 4 ≤ 2 ^ 64) (hpending : rt.pending? thread = some thrown) :
    Gives thread rt (takeFaultOnce d describe) (lookOf thrown rt.faults.messageFaults)
      (afterLook rt thread (shownIn 1 describe)) := by
  -- the exception is held and no longer pending, and then its class name was read
  let held (n : Nat) : Runtime :=
    { (rt.withLocal (.throwable thrown)).clearPending thread with described := rt.described + n }
  let named (n : Nat) : Runtime :=
    { held n with refs := { (held n).refs with next := (held n).refs.next + 2 } }
  have hclear (n : Nat) : (held n).pending? thread = none :=
    (Runtime.pending?_clear _ thread thread).trans (if_pos rfl)
  have hsound₁ (n : Nat) : (held n).refs.Sound :=
    hsound.insert (show rt.refs.next < 2 ^ 64 by omega) _ _
  have hsound₂ (n : Nat) : (named n).refs.Sound :=
    (hsound₁ n).later (show rt.refs.next + 1 + 2 ≤ 2 ^ 64 by omega)
  have hname (n : Nat) : Gives thread (held n) (classNameOf d.classGetName rt.refs.token)
      (some (dotted thrown.cls.name)) (named n) :=
    gives_classNameOf hfound (hsound₁ n) (show rt.refs.next + 1 + 2 ≤ 2 ^ 64 by omega) (hclear n)
      ((hsound₁ n).refers (List.mem_cons_self ..))
  -- the same is done then, whether the exception was shown in the log or not
  have hrest (n : Nat) : Gives thread (held n) (do
      let className ← classNameOf d.classGetName rt.refs.token
      readMessage d rt.refs.token className)
      (lookOf thrown rt.faults.messageFaults) (afterLook rt thread n) := by
    have hread := gives_readMessage hfound (hsound₂ n) (show rt.refs.next + 1 + 2 < 2 ^ 64 by omega) rfl
      (hclear n) (some (dotted thrown.cls.name))
    have harmed : (named n).faults.messageFaults = rt.faults.messageFaults := rfl
    unfold lookOf afterLook
    rw [harmed] at hread
    refine (hname n).bind ?_
    cases htaken : rt.faults.messageFaults.take? with
    | none =>
      rw [htaken] at hread
      exact hread
    | some left =>
      rw [htaken] at hread
      exact hread
  have hoccurred := run_exceptionOccurred hpending
  unfold takeFaultOnce
  refine gives_ask_bind hoccurred rfl ?_
  cases describe with
  | false => exact gives_ask_bind rfl rfl (hrest 0)
  | true =>
    have hstill : ((rt.withLocal (.throwable thrown)).pending? thread).isSome = true :=
      congrArg Option.isSome hpending
    exact gives_ask_bind (run_exceptionDescribe hstill) rfl <| gives_ask_bind rfl rfl (hrest 1)

/-! ## Looks in a row -/

/-- What is reported after so many looks at most: the first exception that could be read, or the class
of the one that was looked at first. -/
def reportWithin (looks : Nat) (first : Option (Option String)) (thrown : Thrown) (budget : Budget) :
    ManagedFault :=
  if budget.upTo looks = looks then
    { message := unknownFaultMessage
      className := if looks = 0 then first.join else first.getD (some (dotted thrown.cls.name)) }
  else if budget.upTo looks = 0 then reportOf thrown
  else reportOf outOfHeap

/-- References that are made in so many looks at most. -/
def madeIn (looks : Nat) (budget : Budget) : Nat :=
  3 * budget.upTo looks + if budget.upTo looks = looks then 0 else 4

/-- A look that finds the accessor raising leaves one look less, for the exception of the accessor. -/
theorem reportWithin_succ {looks : Nat} {first : Option (Option String)} {budget left : Budget}
    (htaken : budget.take? = some left) :
    reportWithin looks (some (first.getD (some (dotted thrown.cls.name)))) outOfHeap left =
      reportWithin (looks + 1) first thrown budget := by
  unfold reportWithin
  rw [(Budget.of_take? htaken looks).1]
  by_cases hall : left.upTo looks = looks
  · cases looks <;> simp [hall]
  · simp [hall]

theorem madeIn_succ {looks : Nat} {budget left : Budget} (htaken : budget.take? = some left) :
    3 + madeIn looks left = madeIn (looks + 1) budget := by
  unfold madeIn
  rw [(Budget.of_take? htaken looks).1]
  by_cases hall : left.upTo looks = looks
  · simp [hall]
    omega
  · simp [hall]
    omega

theorem shownIn_add (looks more : Nat) (describe : Bool) :
    shownIn looks describe + shownIn more describe = shownIn (looks + more) describe := by
  cases describe <;> rfl

/-- **Any number of looks**, by induction on what is left of them. -/
theorem gives_takeFaultWithin (hfound : Found d) (describe : Bool) (looks : Nat)
    (first : Option (Option String)) (hsound : rt.refs.Sound)
    (hroom : rt.refs.next + 4 * looks ≤ 2 ^ 64) (hpending : rt.pending? thread = some thrown) :
    Gives thread rt (takeFaultWithin d describe looks first)
      (reportWithin looks first thrown rt.faults.messageFaults)
      (rt.taken thread (madeIn looks rt.faults.messageFaults)
        (shownIn (min (rt.faults.messageFaults.upTo looks + 1) looks) describe)
        (rt.faults.messageFaults.less looks)) := by
  induction looks generalizing first rt thrown with
  | zero =>
    -- no look is left: what is pending is cleared unread
    have hnone : rt.faults.messageFaults.upTo 0 = 0 := by
      cases rt.faults.messageFaults <;> simp [Budget.upTo]
    have hsame : rt.faults.messageFaults.less 0 = rt.faults.messageFaults := by
      cases rt.faults.messageFaults <;> rfl
    have hcleared : rt.taken thread 0 0 rt.faults.messageFaults = rt.clearPending thread := rfl
    unfold reportWithin madeIn shownIn
    simp only [hnone, hsame, if_true, Nat.min_zero, ite_self, hcleared]
    exact gives_ask_bind rfl rfl (gives_done _)
  | succ looks ih =>
    refine (gives_takeFaultOnce hfound describe hsound (by omega) hpending).bind ?_
    unfold lookOf afterLook
    cases htaken : rt.faults.messageFaults.take? with
    | none =>
      -- this look reads the exception
      rw [Budget.eq_of_take?_none htaken]
      have hunused : (Budget.count 0).upTo (looks + 1) = 0 := Nat.zero_min _
      have honce : min 1 (looks + 1) = 1 := Nat.min_eq_left (Nat.le_add_left ..)
      have hleft : (Budget.count 0).less (looks + 1) = .count 0 :=
        congrArg Budget.count (Nat.zero_sub _)
      have hread : reportWithin (looks + 1) first thrown (.count 0) = reportOf thrown := by
        simp [reportWithin, hunused]
      have hmade : madeIn (looks + 1) (.count 0) = 4 := by simp [madeIn, hunused]
      rw [hread, hmade, hunused, honce, hleft]
      exact gives_done _
    | some left =>
      -- the accessor has raised, and its exception is pending for the looks that are left
      obtain ⟨hupTo, hless⟩ := Budget.of_take? htaken looks
      let raised : Runtime := (rt.taken thread 3 (shownIn 1 describe) left).raise thread outOfHeap
      let seen : Option (Option String) := some (first.getD (some (dotted thrown.cls.name)))
      have hnext : Gives thread raised (takeFaultWithin d describe looks seen)
          (reportWithin looks seen outOfHeap left) (raised.taken thread (madeIn looks left)
            (shownIn (min (left.upTo looks + 1) looks) describe) (left.less looks)) :=
        ih seen (hsound.later (show rt.refs.next + 3 ≤ 2 ^ 64 by omega))
          (show rt.refs.next + 3 + 4 * looks ≤ 2 ^ 64 by omega)
          ((Runtime.pending?_raise ..).trans (if_pos rfl))
      have hmore : 1 + min (left.upTo looks + 1) looks = min (left.upTo looks + 1 + 1) (looks + 1) := by
        omega
      rw [Runtime.taken_raise, reportWithin_succ htaken, madeIn_succ htaken, shownIn_add, hmore,
        ← hless,
        ← hupTo] at hnext
      exact hnext

/-! ## The whole -/

/-- What is reported of a pending exception under a budget of message faults. -/
def faultOf (thrown : Thrown) : Budget → ManagedFault
  | .count 0 => { message := thrown.message, className := some (dotted thrown.cls.name) }
  | .count 1 => { message := "Java heap space", className := some "java.lang.OutOfMemoryError" }
  | _ => { message := unknownFaultMessage, className := some (dotted thrown.cls.name) }

/-- What is left of a runtime from which a pending exception was taken. -/
structure Relieved (rt : Runtime) (thread : ThreadId) (describe : Bool) (rt' : Runtime) : Prop where
  clear : rt'.pending? thread = none
  others : ∀ other, other ≠ thread → rt'.pending? other = rt.pending? other
  live : rt'.refs.live = rt.refs.live
  /-- A finite budget loses a unit for each look that failed. -/
  budget : rt'.faults = { rt.faults with
    messageFaults := match rt.faults.messageFaults with
      | .count units => .count (units - min units 2)
      | .endless => .endless }
  /-- Each look is shown in the log, if they are shown at all. -/
  described : rt'.described = rt.described +
    if describe then (if rt.faults.messageFaults = .count 0 then 1 else 2) else 0
  rest : rt' = { rt with
    pending := rt'.pending, refs := rt'.refs, faults := rt'.faults, described := rt'.described }

theorem dotted_outOfMemory : dotted ThrownClass.outOfMemory.name = "java.lang.OutOfMemoryError" := by
  apply String.toList_inj.mp
  unfold dotted
  rw [String.toList_map]
  decide

/-- Two looks report what `faultOf` says. -/
theorem reportWithin_two (thrown : Thrown) (budget : Budget) :
    reportWithin maxFaultAttempts none thrown budget = faultOf thrown budget := by
  have hheap : reportOf outOfHeap = faultOf thrown (.count 1) := by
    show ManagedFault.mk _ (some (dotted ThrownClass.outOfMemory.name)) = _
    rw [dotted_outOfMemory]
    rfl
  unfold reportWithin maxFaultAttempts
  match budget with
  | .count 0 => rfl
  | .count 1 => exact hheap
  | .count (units + 2) =>
    have hall : (Budget.count (units + 2)).upTo 2 = 2 := Nat.min_eq_right (Nat.le_add_left ..)
    rw [hall]
    rfl
  | .endless => rfl

theorem gives_takeFault (hfound : Found d) (describe : Bool) (hsound : rt.refs.Sound)
    (hroom : rt.refs.next + 8 ≤ 2 ^ 64) (hpending : rt.pending? thread = some thrown) :
    Gives thread rt (takeFault d describe) (faultOf thrown rt.faults.messageFaults)
      (rt.taken thread (madeIn 2 rt.faults.messageFaults)
        (shownIn (min (rt.faults.messageFaults.upTo 2 + 1) 2) describe)
        (rt.faults.messageFaults.less 2)) := by
  have hraised : (rt.pending? thread).isSome = true := congrArg Option.isSome hpending
  rw [← reportWithin_two]
  exact gives_ask_bind (run_exceptionCheck hraised) rfl
    (gives_takeFaultWithin hfound describe maxFaultAttempts none hsound hroom hpending)

theorem relieved_taken (rt : Runtime) (thread : ThreadId) (describe : Bool) (made : Nat) :
    Relieved rt thread describe (rt.taken thread made
      (shownIn (min (rt.faults.messageFaults.upTo 2 + 1) 2) describe)
      (rt.faults.messageFaults.less 2)) where
  clear := (Runtime.pending?_clear rt thread thread).trans (if_pos rfl)
  others other hne := (Runtime.pending?_clear rt thread other).trans (if_neg hne)
  live := rfl
  budget := by
    unfold Runtime.taken
    cases rt.faults.messageFaults with
    | count units =>
      have hsame : units - 2 = units - min units 2 := by omega
      rw [Budget.less, hsame]
    | endless => rfl
  described := by
    -- with no fault left the first attempt reads the message, otherwise there is a second one
    have hlooks : min (rt.faults.messageFaults.upTo 2 + 1) 2 =
        if rt.faults.messageFaults = .count 0 then 1 else 2 := by
      match rt.faults.messageFaults with
      | .count 0 => rfl
      | .count (units + 1) =>
        have hsome : Budget.count (units + 1) ≠ .count 0 := by simp
        rw [if_neg hsome, Budget.upTo]
        omega
      | .endless => rfl
    rw [← hlooks]
    rfl
  rest := rfl

/-- **What is taken, exactly.** With nothing pending, nothing changes. Otherwise the budget of message
faults says whether the exception itself is reported, that of its accessor, or that it could not be
read, under a class name with dots; and so much of the runtime has changed then, and no more. -/
theorem takeFault_exact (hfound : Found d) (describe : Bool) (hsound : rt.refs.Sound)
    (hroom : rt.refs.next + 8 ≤ 2 ^ 64) :
    match rt.pending? thread with
    | none => rt.play thread (takeFault d describe) = (.ok { message := noPendingFaultMessage }, rt)
    | some thrown => ∃ rt',
        rt.play thread (takeFault d describe) =
          (.ok (faultOf thrown rt.faults.messageFaults), rt') ∧
        Relieved rt thread describe rt' ∧
        ∀ name, (faultOf thrown rt.faults.messageFaults).className = some name → '/' ∉ name.toList := by
  cases hpending : rt.pending? thread with
  | none =>
    have hclear : (rt.pending? thread).isSome = false := congrArg Option.isSome hpending
    have htaken : Gives thread rt (takeFault d describe) { message := noPendingFaultMessage } rt :=
      gives_ask_bind (run_exceptionCheck hclear) rfl (gives_done _)
    exact htaken.played
  | some thrown =>
    refine ⟨_, (gives_takeFault hfound describe hsound hroom hpending).played,
      relieved_taken rt thread describe _, ?_⟩
    -- every class name that is reported is one with dots
    have hnamed : ∃ cls : ThrownClass,
        (faultOf thrown rt.faults.messageFaults).className = some (dotted cls.name) := by
      unfold faultOf
      split
      · exact ⟨thrown.cls, rfl⟩
      · exact ⟨.outOfMemory, by rw [dotted_outOfMemory]⟩
      · exact ⟨thrown.cls, rfl⟩
    obtain ⟨cls, hclassName⟩ := hnamed
    intro name hsame
    rw [hclassName, Option.some.injEq] at hsame
    rw [← hsame]
    exact slash_not_mem_dotted cls.name

/-! ### A runtime on which it was run -/

theorem found_numbered : Found numbered := by
  have hdeclared : ∀ m ∈ numbered.looked,
      declaredMethod m.1 m.2.1 = some (m.2.2.bits.toNat - 1) ∧ 0 < m.2.2.bits.toNat := by
    decide
  intro m hmem
  obtain ⟨hplace, hcounted⟩ := hdeclared m hmem
  rw [findMethod_declared hplace, Nat.sub_add_cancel hcounted]
  simp

/-- An exception is pending on one thread and another one on another, and one message fault is armed. -/
def armed : Runtime where
  phase := .running
  pending := [(1, ⟨.ignite, "gone"⟩), (2, ⟨.illegalState, "stopped"⟩)]
  faults := { messageFaults := .count 1 }
  files := { nodes := [], distinct := List.nodup_nil }

theorem sound_armed : armed.refs.Sound := ⟨by decide, by decide, nofun, .nil⟩

theorem takeFault_armed : Found numbered ∧ armed.refs.Sound ∧ armed.refs.next + 8 ≤ 2 ^ 64 ∧
    ∃ rt', armed.play 1 (takeFault numbered true) =
        (.ok { message := "Java heap space", className := some "java.lang.OutOfMemoryError" }, rt') ∧
      Relieved armed 1 true rt' := by
  obtain ⟨rt', hplayed, hrelieved, -⟩ :=
    @takeFault_exact 1 armed numbered found_numbered true sound_armed (by decide)
  exact ⟨found_numbered, sound_armed, by decide, rt', hplayed, hrelieved⟩

end GridBridge.Bridge
