import GridBridge.Bridge.Descriptors
import GridBridge.Proofs.Managed.Methods
import GridBridge.Proofs.Seam.Ledger

/-!
# Resolution: descriptors are made in full or not at all

`Descriptors.resolveAll` makes one durable reference after the other. **`Underway`** is the invariant
on the way: the ledger holds exactly the references that the progress names, each for its class, and
no local reference more than before. From it come the two ends of `Descriptors.resolve`: all
descriptors, **`Bound`** in the ledger, or a failure after which the ledger holds what it held.
-/

namespace GridBridge.Bridge

open Protocol Seam Seam.Script Managed

variable {strict : Prop} {ℓ ℓ₀ : Ledger} {α β : Type}

/-! ## Descriptors in a ledger -/

namespace Descriptors

/-- The class references with the names of their classes, in the order in which they were made. -/
def named (d : Descriptors) : List (Ref × String) :=
  [(d.throwable, ClassName.throwable), (d.cls, ClassName.cls), (d.ignition, ClassName.ignition),
    (d.ignitionEx, ClassName.ignitionEx), (d.interopUtils, ClassName.interopUtils),
    (d.interopProcessor, ClassName.interopProcessor), (d.interopTarget, ClassName.interopTarget),
    (d.interopCache, ClassName.interopCache)]

/-- The method identifiers with the class and the method that each was looked up by. -/
def looked (d : Descriptors) : List (String × MethodSpec × MethodId) :=
  [(ClassName.throwable, Method.toString, d.throwableToString),
    (ClassName.throwable, Method.getMessage, d.throwableGetMessage),
    (ClassName.cls, Method.getName, d.classGetName),
    (ClassName.ignition, Method.ignite, d.ignitionIgnite),
    (ClassName.ignitionEx, Method.startWithClosure, d.ignitionExStart),
    (ClassName.interopUtils, Method.interop, d.interopUtilsInterop),
    (ClassName.interopUtils, Method.asyncCallback, d.interopUtilsAsyncCallback),
    (ClassName.interopProcessor, Method.cache, d.interopProcessorCache),
    (ClassName.interopTarget, Method.inOp, d.interopTargetInOp),
    (ClassName.interopTarget, Method.inOutOp, d.interopTargetInOutOp),
    (ClassName.interopTarget, Method.inOutOpAsync, d.interopTargetInOutOpAsync)]

theorem map_named (d : Descriptors) : d.named.map (·.1) = d.classes := rfl

/-- The descriptors are what their names say: each class reference is known for its class, and under
the strict rules each method identifier was found on its class. -/
structure Bound (d : Descriptors) (strict : Prop) (classes : List (Ref × String)) : Prop where
  nonNull : ∀ r ∈ d.classes, r.isNull = false
  known : ∀ c ∈ d.named, c ∈ classes
  methods : strict → ∀ m ∈ d.looked, findMethod m.1 m.2.1 = some m.2.2

end Descriptors

/-- A method that was found under its name is the method of that name. -/
theorem denotes_of_findMethod {name : String} {spec : MethodSpec} {id : MethodId}
    (h : findMethod name spec = some id) : Ledger.Denotes id spec.isStatic := by
  obtain ⟨entry, hentry, hspec, _⟩ := findMethod_eq_some h
  exact ⟨entry, hentry, by rw [hspec]⟩

theorem Descriptors.Bound.denotes {d : Descriptors} {classes : List (Ref × String)}
    (h : d.Bound strict classes) (hs : strict) (name : String) (spec : MethodSpec) {id : MethodId}
    (hlooked : (name, spec, id) ∈ d.looked) : Ledger.Denotes id spec.isStatic :=
  denotes_of_findMethod (h.methods hs _ hlooked)

/-! ## Giving durable references back -/

theorem wp_deleteGlobalRefs {refs : List Ref} {G : Multiset Ref} {Q : PUnit → Ledger → Prop}
    (hup : ℓ.destroys = 0) (hnull : ∀ r ∈ refs, r.isNull = false)
    (hglobals : ℓ.globals = G + refs) (hQ : Q ⟨⟩ { ℓ with globals := G }) :
    (refs.forM fun r => ask (.deleteGlobalRef r)).wp (rules strict) Q ℓ := by
  induction refs generalizing ℓ with
  | nil =>
    have hsame : ℓ.globals = G := by simpa using hglobals
    rw [← hsame] at hQ
    exact hQ
  | cons r rest ih =>
    have hr : r.isNull = false := hnull r (List.mem_cons_self ..)
    have hsplit : ℓ.globals = (G + rest) + held r := by
      rw [hglobals, held_of_not_null hr, ← Multiset.cons_coe, Multiset.add_cons,
        ← Multiset.singleton_add, add_comm]
    refine wp_bind.mpr (wp_deleteGlobalRef hup hsplit ?_)
    exact ih hup (fun r' hr' => hnull r' (List.mem_cons_of_mem _ hr')) rfl hQ

theorem Descriptors.wp_release {d : Descriptors} {G : Multiset Ref} {Q : Unit → Ledger → Prop}
    (hup : ℓ.destroys = 0) (hnull : ∀ r ∈ d.classes, r.isNull = false)
    (hglobals : ℓ.globals = G + d.classes) (hQ : Q () { ℓ with globals := G }) :
    d.release.wp (rules strict) Q ℓ :=
  wp_deleteGlobalRefs hup hnull hglobals hQ

/-! ## Steps of resolution -/

namespace Descriptors

/-- Resolution has come so far: these class references, each with its class, and these methods. -/
structure Underway (strict : Prop) (ℓ₀ : Ledger) (named : List (Ref × String))
    (looked : List (String × MethodSpec × MethodId)) (progress : Progress) (ℓ : Ledger) : Prop where
  locals : ℓ.locals = ℓ₀.locals
  globals : ℓ.globals = ℓ₀.globals + (named.map (·.1) : List Ref)
  registered : ℓ.registered = ℓ₀.registered
  launches : ℓ.launches = ℓ₀.launches
  destroys : ℓ.destroys = ℓ₀.destroys
  admits : ℓ.admits = ℓ₀.admits
  vacant : ℓ.vacant = ℓ₀.vacant
  made : progress.globals = named.map (·.1)
  nonNull : ∀ c ∈ named, c.1.isNull = false
  known : ∀ c ∈ named, c ∈ ℓ.classes
  methods : strict → ∀ m ∈ looked, findMethod m.1 m.2.1 = some m.2.2
  getName : strict → ∀ id, progress.classGetName = some id → Ledger.Denotes id false
  toText : strict → ∀ id, progress.throwableToString = some id → Ledger.Denotes id false

/-- Resolution changes nothing else in the ledger. -/
theorem Underway.ledger_eq {named : List (Ref × String)}
    {looked : List (String × MethodSpec × MethodId)} {progress : Progress}
    (h : Underway strict ℓ₀ named looked progress ℓ) :
    ℓ = { ℓ₀ with globals := ℓ.globals, classes := ℓ.classes, pending := ℓ.pending } :=
  Ledger.ext h.locals rfl rfl h.registered h.launches h.destroys rfl h.admits h.vacant

/-- The weakest precondition of a step of resolution. -/
def Resolving.wp (strict : Prop) (x : Resolving α) (Q : α → Progress → Ledger → Prop)
    (E : Unresolved → Progress → Ledger → Prop) (progress : Progress) (ℓ : Ledger) : Prop :=
  (x.run.run progress).wp (rules strict) (fun ended ℓ' =>
    match ended.1 with
    | .ok value => Q value ended.2 ℓ'
    | .error missing => E missing ended.2 ℓ') ℓ

section Rules

variable {E : Unresolved → Progress → Ledger → Prop} {progress : Progress}

theorem Resolving.wp_modify {f : Progress → Progress} {Q : PUnit → Progress → Ledger → Prop} :
    Resolving.wp strict (modify f) Q E progress ℓ ↔ Q ⟨⟩ (f progress) ℓ := Iff.rfl

theorem Resolving.wp_ask {request : Call} {Q : request.Reply → Progress → Ledger → Prop} :
    Resolving.wp strict (Resolving.ask request) Q E progress ℓ ↔
      (Script.ask request).wp (rules strict) (fun reply => Q reply progress) ℓ := Iff.rfl

theorem Resolving.wp_bind {x : Resolving α} {f : α → Resolving β}
    {Q : β → Progress → Ledger → Prop} :
    Resolving.wp strict (x >>= f) Q E progress ℓ ↔
      Resolving.wp strict x (fun value => Resolving.wp strict (f value) Q E) E progress ℓ := by
  unfold Resolving.wp
  rw [ExceptT.run_bind, StateT.run_bind, Script.wp_bind]
  constructor <;> intro h <;> refine wp_mono h ?_ <;> rintro ⟨e | value, progress'⟩ ℓ' hs' <;>
    exact hs'

end Rules

variable {named : List (Ref × String)} {looked : List (String × MethodSpec × MethodId)}
  {progress : Progress}

/-- Resolution stopped somewhere: what has been made so far is known. -/
def Stopped (strict : Prop) (ℓ₀ : Ledger) (_ : Unresolved) (progress : Progress) (ℓ : Ledger) :
    Prop :=
  ∃ named looked, Underway strict ℓ₀ named looked progress ℓ

/-- A class is resolved: one more durable reference, and nothing else. -/
theorem wp_resolveClass (h : Underway strict ℓ₀ named looked progress ℓ) (hup : ℓ₀.destroys = 0)
    (hclear : strict → ℓ.pending = false) {name : String}
    {Q : Ref → Progress → Ledger → Prop}
    (hQ : ∀ kept ℓ', Underway strict ℓ₀ (named ++ [(kept, name)]) looked
      { progress with globals := progress.globals ++ [kept] } ℓ' → ℓ'.pending = false →
      Q kept { progress with globals := progress.globals ++ [kept] } ℓ') :
    Resolving.wp strict (resolveClass name) Q (Stopped strict ℓ₀) progress ℓ := by
  have hup' : ℓ.destroys = 0 := h.destroys.trans hup
  refine Resolving.wp_bind.mpr (Resolving.wp_ask.mpr (wp_findClass hup' hclear ?_))
  intro found p hfound
  cases hnull : found.isNull with
  | true =>
    obtain rfl := Ref.isNull_iff.mp hnull
    exact ⟨named, looked, { h with
      locals := (by simpa using h.locals)
      known := (by simpa using h.known) }⟩
  | false =>
    have hp : p = false := clear_of_object hfound hnull
    refine Resolving.wp_bind.mpr (Resolving.wp_ask.mpr ?_)
    refine wp_newGlobalRef hup' (Ledger.holds_of_held rfl) (fun _ => hp) ?_
    intro kept p' hkept
    refine Resolving.wp_bind.mpr (Resolving.wp_ask.mpr (wp_deleteLocalRef hup' rfl ?_))
    -- what was known of classes stays known, and the class that was found becomes known
    have hlearnt : ∀ c ∈ named,
        c ∈ Ledger.learn ((found, name) :: ℓ.classes) (.newGlobalRef found) kept := fun c hc =>
      Ledger.subset_learn _ _ _ (List.mem_cons_of_mem (found, name) (h.known c hc))
    cases hnull' : kept.isNull with
    | true =>
      obtain rfl := Ref.isNull_iff.mp hnull'
      refine ⟨named, looked, { h with
        globals := (by simpa using h.globals)
        known := ?_ }⟩
      simpa [hnull] using hlearnt
    | false =>
      have hclear' : p' = false := clear_of_object hkept hnull'
      refine hQ kept _ { h with
        globals := ?_
        made := (by rw [h.made, List.map_append, List.map_singleton])
        nonNull := ?_
        known := ?_ } hclear'
      · show ℓ.globals + held kept = _
        rw [h.globals, held_of_not_null hnull', List.map_append, ← Multiset.coe_add, add_assoc]
        rfl
      · intro c hc
        rcases List.mem_append.mp hc with hc | hc
        · exact h.nonNull c hc
        · rw [List.mem_singleton.mp hc]
          exact hnull'
      · intro c hc
        have hlearnt' := hlearnt c
        simp only [Ledger.learn, hnull, hnull', Bool.false_eq_true, if_false] at hlearnt' ⊢
        rcases List.mem_append.mp hc with hc | hc
        · exact hlearnt' hc
        · rw [List.mem_singleton.mp hc]
          exact List.mem_append_left _ (List.mem_map.mpr ⟨(found, name), by simp, rfl⟩)

/-- A method is resolved on a class that was resolved before. -/
theorem wp_resolveMethod (h : Underway strict ℓ₀ named looked progress ℓ) (hup : ℓ₀.destroys = 0)
    {cls : Ref} {name : String} (hcls : (cls, name) ∈ named) (hclear : strict → ℓ.pending = false)
    {spec : MethodSpec} {Q : MethodId → Progress → Ledger → Prop}
    (hQ : ∀ id ℓ', Underway strict ℓ₀ named (looked ++ [(name, spec, id)]) progress ℓ' →
      (strict → ℓ'.pending = false) → Q id progress ℓ') :
    Resolving.wp strict (resolveMethod cls name spec) Q (Stopped strict ℓ₀) progress ℓ := by
  have hholds : ℓ.Holds cls := by
    refine Ledger.holds_of_globals ?_
    rw [h.globals]
    exact Multiset.mem_add.mpr (.inr (List.mem_map_of_mem (f := (·.1)) hcls))
  refine Resolving.wp_bind.mpr (Resolving.wp_ask.mpr ?_)
  refine wp_getMethodId (h.destroys.trans hup) hholds hclear (fun _ => ⟨name, h.known _ hcls⟩) ?_
  intro reply p hmethod
  cases reply with
  -- a look-up that failed stops the resolution with what was looked up so far
  | none => exact ⟨named, looked, { h with }⟩
  | some id =>
    refine hQ id _ { h with methods := ?_ } fun hs => (hmethod hs id rfl).1
    -- the methods from before, and this one
    intro hs m hm
    rcases List.mem_append.mp hm with hm | hm
    · exact h.methods hs m hm
    · rw [List.mem_singleton.mp hm]
      exact (hmethod hs id rfl).2 name (h.known _ hcls)

/-- Keeping one of the two describing methods. -/
theorem Underway.keep (h : Underway strict ℓ₀ named looked progress ℓ) {name : String}
    {spec : MethodSpec} {id : MethodId} (hlooked : (name, spec, id) ∈ looked)
    (hinstance : spec.isStatic = false) :
    Underway strict ℓ₀ named looked { progress with throwableToString := some id } ℓ ∧
      Underway strict ℓ₀ named looked { progress with classGetName := some id } ℓ := by
  have hdenotes : strict → ∀ id', some id = some id' → Ledger.Denotes id' false := by
    rintro hs _ ⟨⟩
    exact hinstance ▸ denotes_of_findMethod (h.methods hs _ hlooked)
  exact ⟨{ h with toText := hdenotes }, { h with getName := hdenotes }⟩

/-! ## All of resolution -/

/-- Every descriptor is resolved, or resolution stops with the ledger known. -/
theorem wp_resolveAll (hup : ℓ₀.destroys = 0) (hclear : strict → ℓ₀.pending = false)
    {Q : Descriptors → Progress → Ledger → Prop}
    (hQ : ∀ d progress ℓ, Underway strict ℓ₀ d.named d.looked progress ℓ →
      (strict → ℓ.pending = false) → Q d progress ℓ) :
    Resolving.wp strict resolveAll Q (Stopped strict ℓ₀) {} ℓ₀ := by
  -- classes and methods take turns, each step on what the one before it left
  have hstart : Underway strict ℓ₀ [] [] {} ℓ₀ := by
    constructor <;> simp
  unfold resolveAll
  refine Resolving.wp_bind.mpr (wp_resolveClass hstart hup hclear ?_)
  intro throwable ℓ h hp
  refine Resolving.wp_bind.mpr (wp_resolveMethod h hup (by simp) (fun _ => hp) ?_)
  intro throwableToString ℓ h hp
  refine Resolving.wp_bind.mpr (Resolving.wp_modify.mpr ?_)
  replace h := (h.keep (List.mem_append_right _ (List.mem_singleton.mpr rfl)) rfl).1
  refine Resolving.wp_bind.mpr (wp_resolveMethod h hup (by simp) hp ?_)
  intro throwableGetMessage ℓ h hp
  refine Resolving.wp_bind.mpr (wp_resolveClass h hup hp ?_)
  intro cls ℓ h hp
  refine Resolving.wp_bind.mpr (wp_resolveMethod h hup (by simp) (fun _ => hp) ?_)
  intro classGetName ℓ h hp
  refine Resolving.wp_bind.mpr (Resolving.wp_modify.mpr ?_)
  replace h := (h.keep (List.mem_append_right _ (List.mem_singleton.mpr rfl)) rfl).2
  refine Resolving.wp_bind.mpr (wp_resolveClass h hup hp ?_)
  intro ignition ℓ h hp
  refine Resolving.wp_bind.mpr (wp_resolveMethod h hup (by simp) (fun _ => hp) ?_)
  intro ignitionIgnite ℓ h hp
  refine Resolving.wp_bind.mpr (wp_resolveClass h hup hp ?_)
  intro ignitionEx ℓ h hp
  refine Resolving.wp_bind.mpr (wp_resolveMethod h hup (by simp) (fun _ => hp) ?_)
  intro ignitionExStart ℓ h hp
  refine Resolving.wp_bind.mpr (wp_resolveClass h hup hp ?_)
  intro interopUtils ℓ h hp
  refine Resolving.wp_bind.mpr (wp_resolveMethod h hup (by simp) (fun _ => hp) ?_)
  intro interopUtilsInterop ℓ h hp
  refine Resolving.wp_bind.mpr (wp_resolveMethod h hup (by simp) hp ?_)
  intro interopUtilsAsyncCallback ℓ h hp
  refine Resolving.wp_bind.mpr (wp_resolveClass h hup hp ?_)
  intro interopProcessor ℓ h hp
  refine Resolving.wp_bind.mpr (wp_resolveMethod h hup (by simp) (fun _ => hp) ?_)
  intro interopProcessorCache ℓ h hp
  refine Resolving.wp_bind.mpr (wp_resolveClass h hup hp ?_)
  intro interopTarget ℓ h hp
  refine Resolving.wp_bind.mpr (wp_resolveMethod h hup (by simp) (fun _ => hp) ?_)
  intro interopTargetInOp ℓ h hp
  refine Resolving.wp_bind.mpr (wp_resolveMethod h hup (by simp) hp ?_)
  intro interopTargetInOutOp ℓ h hp
  refine Resolving.wp_bind.mpr (wp_resolveMethod h hup (by simp) hp ?_)
  intro interopTargetInOutOpAsync ℓ h hp
  refine Resolving.wp_bind.mpr (wp_resolveClass h hup hp ?_)
  intro interopCache ℓ h hp
  exact hQ _ _ ℓ h fun _ => hp

/-- Two methods that may describe the exception of a failed start, where they were resolved. -/
def ResolveFailure.Describes (strict : Prop) (f : ResolveFailure) : Prop :=
  strict → (∀ id, f.classGetName = some id → Ledger.Denotes id false) ∧
    ∀ id, f.throwableToString = some id → Ledger.Denotes id false

/-- **All or nothing.** Resolution ends with the eight durable references of bound descriptors, or
with a failure and the references that there were before. -/
theorem wp_resolve (hup : ℓ₀.destroys = 0) (hclear : strict → ℓ₀.pending = false)
    {Q : Except ResolveFailure Descriptors → Ledger → Prop}
    (hok : ∀ d classes p, d.Bound strict classes → (strict → p = false) →
      Q (.ok d) { ℓ₀ with globals := ℓ₀.globals + d.classes, classes, pending := p })
    (herror : ∀ failure classes p, ResolveFailure.Describes strict failure →
      Q (.error failure) { ℓ₀ with classes, pending := p }) :
    resolve.wp (rules strict) Q ℓ₀ := by
  unfold resolve
  refine wp_bind.mpr ?_
  have hall : Resolving.wp strict resolveAll (fun d progress ℓ =>
      Underway strict ℓ₀ d.named d.looked progress ℓ ∧ (strict → ℓ.pending = false))
      (Stopped strict ℓ₀) {} ℓ₀ := wp_resolveAll hup hclear fun _ _ _ h hp => ⟨h, hp⟩
  refine wp_mono hall ?_
  rintro ⟨missing | d, progress⟩ ℓ h
  -- stopped: what was made so far is given back
  · obtain ⟨named, looked, h⟩ := h
    refine wp_bind.mpr (wp_deleteGlobalRefs (h.destroys.trans hup) ?_ (h.made ▸ h.globals) ?_)
    · intro r hr
      rw [h.made] at hr
      obtain ⟨c, hc, rfl⟩ := List.mem_map.mp hr
      exact h.nonNull c hc
    · rw [h.ledger_eq]
      exact herror _ ℓ.classes ℓ.pending fun hs => ⟨h.getName hs, h.toText hs⟩
  -- all were resolved: what is known of classes and methods binds the descriptors
  · obtain ⟨h, hp⟩ := h
    have hbound : d.Bound strict ℓ.classes := by
      refine ⟨fun r hr => ?_, h.known, h.methods⟩
      rw [← map_named] at hr
      obtain ⟨c, hc, rfl⟩ := List.mem_map.mp hr
      exact h.nonNull c hc
    have hdone := hok d ℓ.classes ℓ.pending hbound hp
    rw [h.ledger_eq, h.globals, map_named]
    exact hdone

end Descriptors

end GridBridge.Bridge
