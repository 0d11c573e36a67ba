import GridBridge.Proofs.Bridge.Exact
import GridBridge.Proofs.Managed.Underway

/-!
# Operations that fail: what they leave as it was

One lemma for each operation on a started loopback runtime, with any faults injected. An operation that
fails has left all as it was but for what calls use up (`Touched`). There are two exceptions, both where
a reference could not be made durable: a cache that was looked up stays open, and an instance that was
started goes on running.
-/

namespace GridBridge.Bridge

open Protocol Seam Seam.Script Managed

/-- Not the error of a reference that could not be made durable. -/
def Unpromoted (e : BridgeError) : Prop := ∀ fault, e ≠ .promotion fault

theorem unpromoted_of_check {op : Opcode} {cls : TargetClass} {shape : Shape} {e : BridgeError}
    (h : op.check cls shape = .error e) : Unpromoted e := by
  unfold Opcode.check at h
  split at h
  · cases h
    exact nofun
  · split at h
    · cases h
    · cases h
      exact nofun

variable {thread : ThreadId} {rt₀ rt : Runtime} {ctx : Context} {α : Type}
  {E : BridgeError → Runtime → Prop}

/-! ## Reading faults -/

section Touched

variable (hmethods : Found ctx.descriptors) (hquiet : rt₀.outbox = [])
    (htouched : Touched thread rt₀ rt)
include hmethods hquiet htouched

theorem Context.wp_fault_silent {Q : ManagedFault → Runtime → Prop}
    (hQ : ∀ fault rt', Touched thread rt₀ rt' → Q fault rt') : ctx.fault.wp (silent thread) Q rt :=
  wp_mono (wp_of_makes (makes_fault hmethods) hquiet htouched) hQ

/-- A fault that is there makes an error. -/
theorem Context.wp_checkFault_touched {Q : Unit → Runtime → Prop}
    (hok : ∀ rt', Touched thread rt₀ rt' → Q () rt')
    (herror : ∀ e rt', Unpromoted e → Touched thread rt₀ rt' → E e rt') :
    Operation.wp (silent thread) ctx.checkFault Q E rt := by
  unfold checkFault
  refine Operation.wp_lift_bind.mpr ?_
  refine wp_harmless_silent hquiet htouched .exceptionCheck trivial fun raised rt₁ htouched₁ => ?_
  cases raised with
  | false => exact hok rt₁ htouched₁
  | true =>
    refine Operation.wp_lift_bind.mpr (wp_fault_silent hmethods hquiet htouched₁ ?_)
    exact fun fault rt₂ htouched₂ => herror _ rt₂ nofun htouched₂

/-- Without an object there is an error, whether something was thrown or not. -/
theorem Instance.wp_requireStarted_null {Q : Unit → Runtime → Prop}
    (herror : ∀ e rt', Unpromoted e → Touched thread rt₀ rt' → E e rt') :
    Operation.wp (silent thread) (requireStarted ctx .null) Q E rt := by
  unfold requireStarted
  refine Operation.wp_lift_bind.mpr ?_
  refine wp_harmless_silent hquiet htouched .exceptionCheck trivial fun raised rt₁ htouched₁ => ?_
  cases raised with
  | false => exact herror _ rt₁ nofun htouched₁
  | true =>
    refine Operation.wp_lift_bind.mpr (Context.wp_fault_silent hmethods hquiet htouched₁ ?_)
    exact fun fault rt₂ htouched₂ => herror _ rt₂ nofun htouched₂

end Touched

theorem Context.wp_checkFault_clear (hclear : rt.pending? thread = none) (hquiet : rt.outbox = [])
    {Q : Unit → Runtime → Prop} (hok : Q () rt) :
    Operation.wp (silent thread) ctx.checkFault Q E rt :=
  Operation.wp_lift_bind.mpr (wp_exceptionCheck_silent hclear hquiet hok)

/-- A runtime that was launched before takes no other launch. -/
theorem Context.wp_start_refused (hbegun : rt.phase ≠ .idle) (hquiet : rt.outbox = [])
    {args : LaunchArgs} {Q : Descriptors → Runtime → Prop} (herror : ∀ e, Unpromoted e → E e rt) :
    Operation.wp (silent thread) (Context.start args) Q E rt := by
  unfold start
  refine Operation.wp_lift_bind.mpr (wp_launch_refused hbegun hquiet ?_)
  exact herror _ nofun

/-! ## Before a method is called -/

section Underway

variable (h : Underway thread rt₀ rt)
include h

theorem Context.wp_attach_underway {Q : Unit → Runtime → Prop}
    (hok : ∀ rt', Underway thread rt₀ rt' → Q () rt')
    (hrefused : rt₀.admits = false → ∀ e, Unpromoted e → E e rt) :
    Operation.wp (silent thread) Context.attach Q E rt := by
  refine Operation.wp_lift_bind.mpr (h.wp_attach hok ?_)
  exact fun hdenied code => hrefused hdenied (.attach code) nofun

theorem Context.wp_newString_underway {text : String} {Q : Ref → Runtime → Prop}
    (hok : Passes (some text) → ∀ r rt', Underway thread rt₀ rt' →
      rt.refs.Since rt'.refs → rt'.refs.Marks r (some (.str text)) → Q r rt')
    (herror : ¬ Passes (some text) → ∀ e, Unpromoted e → E e rt) :
    Operation.wp (silent thread) (ctx.newString text) Q E rt := by
  unfold newString
  split
  · rename_i hnul
    refine herror (fun hpasses => hpasses text rfl ?_) _ nofun
    exact List.contains_iff_mem.mp hnul
  · rename_i hclean
    -- no NUL was found, so the text is handed over
    have hpasses : Passes (some text) := by
      rintro _ ⟨⟩ hnul
      exact hclean (List.contains_iff_mem.mpr hnul)
    refine Operation.wp_lift_bind.mpr (h.wp_newString ?_)
    intro r rt' h' hsince hmarks
    rw [hmarks.1]
    exact hok hpasses r rt' h' hsince hmarks

theorem Context.wp_nameString_underway {name : Option String} {Q : Ref → Runtime → Prop}
    (hok : Passes name → ∀ r rt', Underway thread rt₀ rt' → rt.refs.Since rt'.refs →
      rt'.refs.Marks r (name.map .str) → Q r rt')
    (herror : ¬ Passes name → ∀ e, Unpromoted e → E e rt) :
    Operation.wp (silent thread) (ctx.nameString name) Q E rt := by
  cases name with
  | none => exact hok passes_none .null rt h .refl rfl
  | some text => exact wp_newString_underway h hok herror

end Underway

/-! ## Handles -/

namespace Handle

/-- The target of the handle was handed out for an object of its class, so it is one while it is live. -/
def Aims (handle : Handle) (rt : Runtime) : Prop :=
  ∃ object, rt.refs.Marks handle.target (some object) ∧ object.isTarget handle.cls = true

/-- A reference to an object is made durable, unless a fault is injected. -/
theorem wp_promote_underway (hmethods : Found ctx.descriptors) (h : Underway thread rt₀ rt)
    {found : Ref}
    {object : Object} (hmarks : rt.refs.Marks found (some object)) {cls : TargetClass}
    (hisTarget : object.isTarget cls = true) {Q : Handle → Runtime → Prop}
    (hok : ∀ handle rt', handle.Aims rt' → Q handle rt')
    (hfault : rt₀.faults.globalRefFaults ≠ .count 0 →
      ∀ fault rt', Touched thread rt₀ rt' → E (.promotion fault) rt') :
    Operation.wp (silent thread) (promote ctx found cls) Q E rt := by
  unfold promote
  rw [hmarks.1]
  refine Operation.wp_lift_bind.mpr (h.wp_newGlobalRef hmarks ?_ ?_)
  · intro target rt₁ hmarks₁ h₁
    refine Operation.wp_lift_bind.mpr (h₁.wp_deleteLocalRef fun rt₂ _ hsince _ => ?_)
    rw [hmarks₁.1]
    exact hok _ rt₂ ⟨object, hmarks₁.since hsince, hisTarget⟩
  -- the fault leaves no reference, and what was found is given back before it is read
  · intro harmed rt₁ htouched₁
    have hquiet := h.quiet_before
    refine Operation.wp_lift_bind.mpr ?_
    refine wp_harmless_silent hquiet htouched₁ (.deleteLocalRef found) trivial fun _ rt₂ htouched₂ => ?_
    refine Operation.wp_lift_bind.mpr ?_
    refine wp_harmless_silent hquiet htouched₂ .exceptionCheck trivial fun raised rt₃ htouched₃ => ?_
    cases raised with
    | false => exact hfault harmed _ rt₃ htouched₃
    | true =>
      refine Operation.wp_lift_bind.mpr (Context.wp_fault_silent hmethods hquiet htouched₃ ?_)
      exact fun fault rt₄ htouched₄ => hfault harmed _ rt₄ htouched₄

end Handle

/-! ## Instances and caches -/

namespace Instance

theorem wp_requireStarted_underway (h : Underway thread rt₀ rt) {r : Ref} {object : Object}
    (hmarks : rt.refs.Marks r (some object)) {Q : Unit → Runtime → Prop} (hok : Q () rt) :
    Operation.wp (silent thread) (requireStarted ctx r) Q E rt := by
  unfold requireStarted
  refine Operation.wp_lift_bind.mpr (wp_exceptionCheck_silent h.clear h.quiet ?_)
  rw [hmarks.1]
  exact hok

/-- The object of a running instance is entered, unless a fault is injected. -/
theorem wp_enter_underway (hmethods : Found ctx.descriptors) (h : Underway thread rt₀ rt) {found : Ref}
    {instanceName : Option String} (hmarks : rt.refs.Marks found (some (.grid instanceName)))
    (hrunning : rt.grid.isRunning instanceName = true) {name : String} {Q : Instance → Runtime → Prop}
    (hok : ∀ i rt', i.handle.Aims rt' → Q i rt')
    (hfault : rt₀.faults.globalRefFaults ≠ .count 0 →
      ∀ fault rt', Touched thread rt₀ rt' → E (.promotion fault) rt') :
    Operation.wp (silent thread) (enter ctx found name) Q E rt := by
  obtain ⟨entry, hmethod, hdoes⟩ := hmethods.entry ClassName.interopUtils Method.interop
    ctx.descriptors.interopUtilsInterop .utilsInterop (by simp [Descriptors.looked]) (by decide)
  unfold enter
  refine Operation.wp_lift_bind.mpr (h.wp_callStatic hmethod (.cons ⟨_, rfl, hmarks⟩ .nil)
    (by rw [hdoes]; exact Code.gives_interop rt hrunning) ?_ False.elim)
  rintro _ processor rt₁ ⟨rfl, hsame⟩ h₁ _ hmarks₁
  rw [hsame, h.touched.grid] at h₁
  refine Operation.wp_lift_bind.mpr (h₁.wp_deleteLocalRef fun rt₂ h₂ hsince _ => ?_)
  -- giving the instance's reference back leaves that of the processor
  have hmarks₂ := hmarks₁.since hsince
  refine Operation.wp_bind.mpr (wp_requireStarted_underway h₂ hmarks₂ ?_)
  exact Operation.wp_bind.mpr (Handle.wp_promote_underway hmethods h₂ hmarks₂ rfl
    (fun handle rt₃ => hok ⟨handle, name⟩ rt₃) hfault)

/-- Finding an instance changes nothing. It fails only where no thread can attach, the name does not
cross the boundary or no such instance is running, or where a fault is injected. -/
theorem wp_find_underway (hmethods : Found ctx.descriptors) (h : Underway thread rt₀ rt) {name : String}
    {Q : Instance → Runtime → Prop} (hok : ∀ i rt', i.handle.Aims rt' → Q i rt')
    (herror : ¬ (rt₀.admits = true ∧ Passes (wireName name) ∧
      rt₀.grid.isRunning (wireName name) = true) →
      ∀ e rt', Unpromoted e → Touched thread rt₀ rt' → E e rt')
    (hfault : rt₀.faults.globalRefFaults ≠ .count 0 →
      ∀ fault rt', Touched thread rt₀ rt' → E (.promotion fault) rt') :
    Operation.wp (silent thread) (find ctx name) Q E rt := by
  obtain ⟨entry, hmethod, hdoes⟩ := hmethods.entry ClassName.ignition Method.ignite
    ctx.descriptors.ignitionIgnite .ignitionIgnite (by simp [Descriptors.looked]) (by decide)
  have hquiet := h.quiet_before
  unfold find
  refine Operation.wp_bind.mpr (Context.wp_attach_underway h ?_ ?_)
  swap
  · exact fun hrefused e hother => herror (by simp [hrefused]) e rt hother h.touched
  intro rt₁ h₁
  refine Operation.wp_bind.mpr (Context.wp_nameString_underway h₁ ?_ ?_)
  swap
  · exact fun hrefused e hother => herror (fun hall => hrefused hall.2.1) e rt₁ hother h₁.touched
  intro _ nameRef rt₂ h₂ _ hmarks
  refine Operation.wp_lift_bind.mpr (h₂.wp_callStatic hmethod (.cons ⟨_, rfl, hmarks⟩ .nil)
    (by rw [hdoes]; exact Code.gives_findInstance rt₂ (wireName name)) ?_ ?_)
  · rintro _ found rt₃ ⟨rfl, hsame, hrunning⟩ h₃ _ hmarks₃
    rw [hsame, h₂.touched.grid] at h₃
    refine Operation.wp_lift_bind.mpr (h₃.wp_deleteLocalRef fun rt₄ h₄ hsince hsame' => ?_)
    have hmarks₄ := hmarks₃.since hsince
    refine Operation.wp_bind.mpr (wp_requireStarted_underway h₄ hmarks₄ ?_)
    exact wp_enter_underway hmethods h₄ hmarks₄ (by rw [hsame', hsame, hrunning]) hok hfault
  -- no such instance: the name is given back with the exception pending
  · intro hstopped rt₃ htouched₃
    rw [h₂.touched.grid] at hstopped
    have hrefused := herror (by simp [hstopped])
    refine Operation.wp_lift_bind.mpr ?_
    refine wp_harmless_silent hquiet htouched₃ (.deleteLocalRef nameRef) trivial
      fun _ rt₄ htouched₄ => ?_
    exact Operation.wp_bind.mpr (wp_requireStarted_null hmethods hquiet htouched₄ hrefused)

/-- Starting an instance that fails changes nothing, unless the instance was started and only its
reference could not be made durable. -/
theorem wp_start_underway (hmethods : Found ctx.descriptors) (h : Underway thread rt₀ rt)
    {path name : String} {Q : Instance → Runtime → Prop}
    (hok : ∀ i rt', i.handle.Aims rt' → Q i rt')
    (herror : ∀ e rt', Unpromoted e → Touched thread rt₀ rt' → E e rt')
    (hfault : Passes (wireName name) → rt₀.grid.isRunning (wireName name) = false → ∀ fault rt',
      Touched thread { rt₀ with grid := rt₀.grid.start (wireName name) path } rt' →
      E (.promotion fault) rt') :
    Operation.wp (silent thread) (start ctx path name) Q E rt := by
  obtain ⟨entry, hmethod, hdoes⟩ := hmethods.entry ClassName.ignitionEx Method.startWithClosure
    ctx.descriptors.ignitionExStart .ignitionExStart (by simp [Descriptors.looked]) (by decide)
  have hquiet := h.quiet_before
  unfold start
  refine Operation.wp_bind.mpr (Context.wp_attach_underway h ?_ ?_)
  swap
  · exact fun _ e hother => herror e rt hother h.touched
  intro rt₁ h₁
  refine Operation.wp_bind.mpr (Context.wp_newString_underway h₁ ?_ ?_)
  swap
  · exact fun _ e hother => herror e rt₁ hother h₁.touched
  intro _ config rt₂ h₂ _ hmarks
  refine Operation.wp_bind.mpr (Operation.wp_tryCatch.mpr ?_)
  refine Context.wp_nameString_underway h₂ ?_ ?_
  swap
  · -- the name could not be made: the first string still has to be given back
    intro _ e hother
    refine Operation.wp_lift_bind.mpr (h₂.wp_deleteLocalRef fun rt₃ h₃ _ _ => ?_)
    exact herror e rt₃ hother h₃.touched
  intro hpasses nameRef rt₃ h₃ hsince hmarks'
  have hmeans : List.Forall₂ rt₃.refs.Means [.object config, .object nameRef, .object .null]
      [.object (some (.str path)), .object ((wireName name).map .str), .object none] :=
    .cons ⟨_, rfl, hmarks.since hsince⟩ (.cons ⟨_, rfl, hmarks'⟩ (.cons ⟨none, rfl, rfl⟩ .nil))
  refine Operation.wp_lift_bind.mpr (h₃.wp_callStatic hmethod hmeans
    (by rw [hdoes]; exact Code.gives_startInstance rt₃ path (wireName name) _) ?_ ?_)
  · rintro _ found rt₄ hgiven h₄ _ hmarks₄
    refine Operation.wp_lift_bind.mpr (h₄.wp_deleteLocalRef fun rt₅ h₅ hsince₅ hsame₅ => ?_)
    refine Operation.wp_lift_bind.mpr (h₅.wp_deleteLocalRef fun rt₆ h₆ hsince₆ hsame₆ => ?_)
    have hmarks₆ := (hmarks₄.since hsince₅).since hsince₆
    rcases hgiven with ⟨rfl, hsame⟩ | ⟨hstopped, rfl, hsame⟩
    · -- by switch nothing came back, and nothing was started
      obtain rfl : found = .null := hmarks₆
      rw [hsame, h₃.touched.grid] at h₆
      exact Operation.wp_bind.mpr (wp_requireStarted_null hmethods hquiet h₆.touched herror)
    · rw [hsame, h₃.touched.grid] at h₆
      rw [h₃.touched.grid] at hstopped
      refine Operation.wp_bind.mpr (wp_requireStarted_underway h₆ hmarks₆ ?_)
      refine wp_enter_underway hmethods h₆ hmarks₆ ?_ hok fun _ => hfault hpasses hstopped
      rw [hsame₆, hsame₅, hsame]
      simp
  -- it throws: both strings are given back with the exception pending
  · intro _ rt₄ htouched₄
    refine Operation.wp_lift_bind.mpr ?_
    refine wp_harmless_silent hquiet htouched₄ (.deleteLocalRef config) trivial
      fun _ rt₅ htouched₅ => ?_
    refine Operation.wp_lift_bind.mpr ?_
    refine wp_harmless_silent hquiet htouched₅ (.deleteLocalRef nameRef) trivial
      fun _ rt₆ htouched₆ => ?_
    exact Operation.wp_bind.mpr (wp_requireStarted_null hmethods hquiet htouched₆ herror)

/-- Looking a cache up that fails changes nothing, unless the cache was opened and only its reference
could not be made durable. -/
theorem wp_cache_underway (hmethods : Found ctx.descriptors) (h : Underway thread rt₀ rt) {i : Instance}
    {object : Object} (htarget : rt₀.refs.Marks i.handle.target (some object)) {name : Option String}
    {Q : Cache → Runtime → Prop} (hok : ∀ c rt', c.handle.Aims rt' → Q c rt')
    (herror : ∀ e rt', Unpromoted e → Touched thread rt₀ rt' → E e rt')
    (hfault : ∀ instanceName running, object = .processor instanceName →
      rt₀.grid.instance? instanceName = some running → ∀ fault rt',
      Touched thread { rt₀ with grid := (rt₀.grid.openCache instanceName running name).2 } rt' →
      E (.promotion fault) rt') :
    Operation.wp (silent thread) (i.cache (some ctx) name) Q E rt := by
  obtain ⟨entry, hmethod, hdoes⟩ := hmethods.entry ClassName.interopProcessor Method.cache
    ctx.descriptors.interopProcessorCache .processorCache (by simp [Descriptors.looked]) (by decide)
  have hquiet := h.quiet_before
  unfold cache
  refine Operation.wp_bind.mpr (Operation.wp_pure.mpr ?_)
  refine Operation.wp_bind.mpr (Context.wp_attach_underway h ?_ ?_)
  swap
  · exact fun _ e hother => herror e rt hother h.touched
  intro rt₁ h₁
  refine Operation.wp_bind.mpr (Context.wp_nameString_underway h₁ ?_ ?_)
  swap
  · exact fun _ e hother => herror e rt₁ hother h₁.touched
  intro _ nameRef rt₂ h₂ _ hmarks
  refine Operation.wp_lift_bind.mpr (h₂.wp_callObject hmethod (htarget.since h₂.touched.refs)
    (.cons ⟨_, rfl, hmarks⟩ .nil) (by rw [hdoes]; exact Code.gives_openCache rt₂ _ name) ?_ ?_)
  · rintro _ found rt₃ hgiven h₃ _ hmarks₃
    refine Operation.wp_lift_bind.mpr (h₃.wp_deleteLocalRef fun rt₄ h₄ hsince₄ _ => ?_)
    refine Operation.wp_bind.mpr (Context.wp_checkFault_clear h₄.clear h₄.quiet ?_)
    have hmarks₄ := hmarks₃.since hsince₄
    rcases hgiven with ⟨rfl, hsame⟩ | ⟨instanceName, running, hself, hfound', ⟨store, rfl⟩, hsame⟩
    -- for an empty name nothing comes back
    · obtain rfl : found = .null := hmarks₄
      rw [hsame, h₂.touched.grid] at h₄
      exact herror _ rt₄ (by simp [Unpromoted]) h₄.touched
    · rw [hsame, h₂.touched.grid] at h₄
      rw [h₂.touched.grid] at hfound'
      rw [hmarks₄.1]
      refine Operation.wp_bind.mpr (Handle.wp_promote_underway hmethods h₄ hmarks₄ rfl
        (fun handle rt₅ => hok ⟨handle, name⟩ rt₅) ?_)
      exact fun _ => hfault instanceName running (Option.some.inj hself) hfound'
  · intro _ rt₃ htouched₃
    refine Operation.wp_lift_bind.mpr ?_
    refine wp_harmless_silent hquiet htouched₃ (.deleteLocalRef nameRef) trivial
      fun _ rt₄ htouched₄ => ?_
    refine Operation.wp_bind.mpr (Context.wp_checkFault_touched hmethods hquiet htouched₄ ?_ herror)
    exact fun rt₅ htouched₅ => herror _ rt₅ (by simp [Unpromoted]) htouched₅

end Instance

/-! ## Calls through handles -/

namespace Handle

variable {handle : Handle} {op : Opcode} {input : Codec.Writer}

theorem wp_prepare_underway (h : Underway thread rt₀ rt) {shape : Shape}
    {Q : Context × List Arg → Runtime → Prop}
    (hok : ∀ args rt', Underway thread rt₀ rt' → Q (ctx, args) rt')
    (herror : ∀ e rt', Unpromoted e → Touched thread rt₀ rt' → E e rt') :
    Operation.wp (silent thread) (handle.prepare (some ctx) op shape input) Q E rt := by
  unfold prepare
  refine Operation.wp_bind.mpr (Operation.wp_liftExcept.mpr ?_)
  cases hchecked : op.check handle.cls shape with
  | error e => exact herror e rt (unpromoted_of_check hchecked) h.touched
  | ok _ =>
    refine Operation.wp_bind.mpr (Operation.wp_pure.mpr ?_)
    refine Operation.wp_bind.mpr (Context.wp_attach_underway h ?_ ?_)
    swap
    · exact fun _ e hother => herror e rt hother h.touched
    intro rt₁ h₁
    refine Operation.wp_bind.mpr (Operation.wp_liftExcept.mpr ?_)
    unfold wireArgs
    -- the length is checked when the thread is attached already
    by_cases hshort : input.position ≤ maxRequestLength
    · rw [if_pos hshort]
      exact hok _ rt₁ h₁
    · rw [if_neg hshort]
      exact herror _ rt₁ nofun h₁.touched

/-- After the call, a fault is an error, and without one the call was carried out. -/
theorem wp_checkFault_carried (hmethods : Found ctx.descriptors) (h : Carried thread rt₀ rt)
    {Q : Unit → Runtime → Prop} (hok : ∀ rt', Q () rt')
    (herror : ∀ e rt', Unpromoted e → Touched thread rt₀ rt' → E e rt') :
    Operation.wp (silent thread) ctx.checkFault Q E rt := by
  obtain ⟨hquiet, hclear | htouched⟩ := h
  · exact Context.wp_checkFault_clear hclear hquiet (hok rt)
  · have hbefore : rt₀.outbox = [] := htouched.outbox.symm.trans hquiet
    exact Context.wp_checkFault_touched hmethods hbefore htouched (fun rt' _ => hok rt') herror

section Calls

variable (hmethods : Found ctx.descriptors) (h : Underway thread rt₀ rt)
  (herror : ∀ e rt', Unpromoted e → Touched thread rt₀ rt' → E e rt')
include hmethods h herror

/-- A call that fails was not carried out. -/
theorem wp_inOp_underway {Q : Int32 → Runtime → Prop} (hok : ∀ value rt', Q value rt') :
    Operation.wp (silent thread) (handle.inOp (some ctx) op input) Q E rt := by
  obtain ⟨entry, hmethod, hdoes⟩ := hmethods.entry ClassName.interopTarget Method.inOp
    ctx.descriptors.interopTargetInOp .targetInOp (by simp [Descriptors.looked]) (by decide)
  unfold inOp
  refine Operation.wp_bind.mpr (wp_prepare_underway h ?_ herror)
  intro args rt₁ h₁
  refine Operation.wp_lift_bind.mpr (h₁.wp_callInt hmethod (by rw [hdoes]; rfl) ?_)
  intro value rt₂ hcarried
  exact Operation.wp_bind.mpr (wp_checkFault_carried hmethods hcarried (fun rt₃ => hok value rt₃)
    herror)

theorem wp_inOutOp_underway {Q : UInt64 → Runtime → Prop} (hok : ∀ value rt', Q value rt') :
    Operation.wp (silent thread) (handle.inOutOp (some ctx) op input) Q E rt := by
  obtain ⟨entry, hmethod, hdoes⟩ := hmethods.entry ClassName.interopTarget Method.inOutOp
    ctx.descriptors.interopTargetInOutOp .targetInOutOp (by simp [Descriptors.looked]) (by decide)
  unfold inOutOp
  refine Operation.wp_bind.mpr (wp_prepare_underway h ?_ herror)
  intro args rt₁ h₁
  refine Operation.wp_lift_bind.mpr (h₁.wp_callLong hmethod (by rw [hdoes]; rfl) ?_)
  intro value rt₂ hcarried
  exact Operation.wp_bind.mpr (wp_checkFault_carried hmethods hcarried (fun rt₃ => hok _ rt₃) herror)

theorem wp_inOutOpAsync_underway {callback : Callback} {data : UInt64} {Q : Unit → Runtime → Prop}
    (hok : ∀ rt', Q () rt') :
    Operation.wp (silent thread) (handle.inOutOpAsync (some ctx) op input callback data) Q E rt := by
  obtain ⟨entry, hmethod, hdoes⟩ := hmethods.entry ClassName.interopTarget Method.inOutOpAsync
    ctx.descriptors.interopTargetInOutOpAsync .targetInOutOpAsync (by simp [Descriptors.looked])
    (by decide)
  unfold inOutOpAsync
  refine Operation.wp_bind.mpr (wp_prepare_underway h ?_ herror)
  intro args rt₁ h₁
  refine Operation.wp_lift_bind.mpr (h₁.wp_callVoid hmethod (by rw [hdoes]; rfl) ?_)
  intro rt₂ hcarried
  exact wp_checkFault_carried hmethods hcarried hok herror

end Calls

end Handle

end GridBridge.Bridge
