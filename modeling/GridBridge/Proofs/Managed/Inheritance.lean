import GridBridge.Proofs.Managed.Atomic
import GridBridge.Proofs.Managed.Plays

/-!
# Inheritance: look-up, subclasses and the check of a call agree

`climb` follows superclasses a number of steps. From any name it comes to the root after `rank name`
steps and to nothing after one more, so the walks of a look-up and of a subclass test come to an end,
and both go over the same names. A method is found if and only if the table offers it on one of them,
and what is found is what the nearest one declares. A call through a class is checked against the
declaring class, so it passes through every class below the one the method was found on, and through
none that the declaring class is not above: **`found_is_callable`**.
-/

namespace GridBridge.Managed

open Protocol Seam

variable {name parent ancestor : String} {spec : MethodSpec} {id : MethodId}

/-! ## Following superclasses -/

/-- The name a number of steps above another one. -/
def climb : Nat → String → Option String
  | 0, name => some name
  | steps + 1, name => (superclass name).bind (climb steps)

theorem climb_add (first more : Nat) (name : String) :
    climb (first + more) name = (climb first name).bind (climb more) := by
  induction first generalizing name with
  | zero => rw [Nat.zero_add]; rfl
  | succ first ih =>
    rw [Nat.add_right_comm]
    simp only [climb, Option.bind_assoc]
    exact congrArg _ (funext ih)

/-- The root is the only name without a superclass. -/
theorem superclass_eq_none_iff : superclass name = none ↔ name = ClassName.object := by
  unfold superclass
  split
  · simpa
  · split
    · simpa
    · split <;> simpa

/-- The rank of a name counts the steps exactly. -/
theorem rank_eq_succ (h : superclass name = some parent) : rank name = rank parent + 1 := by
  -- there are three kinds of parents: caches have the class of targets, errors that of throwables, the
  -- rest the root
  have hcacheRank : rank ClassName.interopTarget = 1 := by decide
  have hthrownRank : rank ClassName.throwable = 1 := by decide
  have hrootRank : rank ClassName.object = 0 := by decide
  unfold superclass at h
  split at h
  · cases h
  · rename_i hnotRoot
    rw [rank, if_neg hnotRoot]
    split at h
    · rename_i hisCache
      cases h
      rw [if_pos hisCache, hcacheRank]
    · rename_i hnotCache
      rw [if_neg hnotCache]
      split at h
      · rename_i hisThrown
        cases h
        rw [if_pos hisThrown, hthrownRank]
      · rename_i hnotThrown
        cases h
        rw [if_neg hnotThrown, hrootRank]

/-- Nothing is further than two steps from the root. -/
theorem rank_le (name : String) : rank name ≤ 2 := by
  unfold rank
  repeat' split
  all_goals decide

/-- No walk along superclasses goes on for ever. -/
theorem superclass_wellFounded : WellFounded fun parent name => superclass name = some parent :=
  Subrelation.wf rank_superclass (measure rank).wf

/-- Climbing takes as many ranks off as it has steps. -/
theorem rank_of_climb {steps : Nat} (h : climb steps name = some ancestor) :
    rank name = rank ancestor + steps := by
  induction steps generalizing name with
  | zero =>
    obtain rfl := Option.some.inj h
    rfl
  | succ steps ih =>
    obtain ⟨parent, hup, hrest⟩ := Option.bind_eq_some_iff.mp h
    rw [rank_eq_succ hup, ih hrest]
    omega

/-- From any name the root is as many steps away as its rank. -/
theorem climb_rank (name : String) : climb (rank name) name = some ClassName.object := by
  induction name using superclass_wellFounded.induction with
  | h name ih =>
    cases hup : superclass name with
    | none =>
      rw [superclass_eq_none_iff.mp hup]
      rfl
    -- one step up, and as many more as the rank of what is there
    | some parent =>
      rw [rank_eq_succ hup, climb, hup]
      exact ih parent hup

/-- Above the root there is nothing. -/
theorem climb_beyond (name : String) : climb (rank name + 1) name = none := by
  rw [climb_add, climb_rank]
  rfl

/-! ## Subclasses -/

/-- The line of the root is the root alone. -/
theorem lineage_of_root (h : superclass name = none) : lineage name = [name] := by
  rw [lineage]
  split
  · rename_i hfound
    rw [h] at hfound
    cases hfound
  · rfl

/-- One round of the walk: a name inherits from itself and from what its superclass inherits from. -/
theorem isSubclass_unroll (name ancestor : String) :
    isSubclass name ancestor =
      (ancestor == name || (superclass name).any fun parent => isSubclass parent ancestor) := by
  unfold isSubclass
  cases hup : superclass name with
  | none => rw [lineage_of_root hup]; rfl
  | some parent => rw [lineage_of_superclass hup, List.contains_cons]; rfl

/-- The ancestors of a name are what can be climbed to. -/
theorem isSubclass_iff_climb :
    isSubclass name ancestor = true ↔ ∃ steps, climb steps name = some ancestor := by
  induction name using superclass_wellFounded.induction with
  | h name ih =>
    rw [isSubclass_unroll, Bool.or_eq_true, beq_iff_eq, Option.any_eq_true]
    constructor
    -- the walk ends here with no step, or goes on from the superclass with one more
    · rintro (rfl | ⟨parent, hup, hinherits⟩)
      · exact ⟨0, rfl⟩
      · obtain ⟨steps, hclimbed⟩ := (ih parent hup).mp hinherits
        refine ⟨steps + 1, ?_⟩
        rw [climb, hup]
        exact hclimbed
    · rintro ⟨steps, hclimbed⟩
      cases steps with
      | zero => exact .inl (Option.some.inj hclimbed).symm
      | succ steps =>
        obtain ⟨parent, hup, hrest⟩ := Option.bind_eq_some_iff.mp hclimbed
        exact .inr ⟨parent, hup, (ih parent hup).mpr ⟨steps, hrest⟩⟩

/-- Every name inherits from itself. -/
theorem isSubclass_refl (name : String) : isSubclass name name = true :=
  isSubclass_iff_climb.mpr ⟨0, rfl⟩

/-- What inherits from a name inherits from all that this one inherits from. -/
theorem isSubclass_trans {first second third : String} (hlow : isSubclass first second = true)
    (hhigh : isSubclass second third = true) : isSubclass first third = true := by
  obtain ⟨more, hclimbed⟩ := isSubclass_iff_climb.mp hlow
  obtain ⟨steps, hon⟩ := isSubclass_iff_climb.mp hhigh
  refine isSubclass_iff_climb.mpr ⟨more + steps, ?_⟩
  rw [climb_add, hclimbed]
  exact hon

/-- Two names that inherit from each other have the same rank, so there are no steps between them. -/
theorem isSubclass_antisymm {first second : String} (hup : isSubclass first second = true)
    (hdown : isSubclass second first = true) : first = second := by
  obtain ⟨steps, hclimbed⟩ := isSubclass_iff_climb.mp hup
  obtain ⟨back, hreturned⟩ := isSubclass_iff_climb.mp hdown
  have hthere := rank_of_climb hclimbed
  have handBack := rank_of_climb hreturned
  obtain rfl : steps = 0 := by omega
  exact Option.some.inj hclimbed

/-! ## Look-up -/

/-- The class declares a method of this name and signature, static or not. -/
def Declares (cls : String) (spec : MethodSpec) : Prop :=
  ∃ entry ∈ methodTable, entry.spec = spec ∧ entry.cls = cls

/-- The class declares or inherits such a method. -/
def Offers (cls : String) (spec : MethodSpec) : Prop :=
  ∃ entry ∈ methodTable, entry.spec = spec ∧ isSubclass cls entry.cls = true

/-- A class declares a method if the table has one of its own. -/
theorem declaredMethod_isSome_iff {cls : String} :
    (declaredMethod cls spec).isSome ↔ Declares cls spec := by
  unfold declaredMethod Declares
  rw [List.findIdx?_isSome, List.any_eq_true]
  simp [and_comm]

/-- One round of the walk: a class that declares the method ends it, any other one hands it on. -/
theorem findMethod_unroll (name : String) (spec : MethodSpec) :
    findMethod name spec =
      match declaredMethod name spec with
      | some index => some ⟨UInt64.ofNat (index + 1)⟩
      | none => (superclass name).bind (findMethod · spec) := by
  unfold findMethod
  cases hup : superclass name with
  | none =>
    rw [lineage_of_root hup, List.findSome?_cons]
    cases declaredMethod name spec <;> rfl
  | some parent =>
    rw [lineage_of_superclass hup, List.findSome?_cons]
    cases declaredMethod name spec <;> rfl

/-- What a class offers it declares itself, or its superclass offers it. -/
theorem offers_unroll : Offers name spec ↔
    Declares name spec ∨ ∃ parent, superclass name = some parent ∧ Offers parent spec := by
  simp only [Offers, Declares, isSubclass_unroll name, Bool.or_eq_true, beq_iff_eq,
    Option.any_eq_true]
  constructor
  -- by where the method is declared, here or further up
  · rintro ⟨entry, hknown, hsame, rfl | ⟨parent, hup, hinherits⟩⟩
    · exact .inl ⟨entry, hknown, hsame, rfl⟩
    · exact .inr ⟨parent, hup, entry, hknown, hsame, hinherits⟩
  · rintro (⟨entry, hknown, hsame, rfl⟩ | ⟨parent, hup, entry, hknown, hsame, hinherits⟩)
    · exact ⟨entry, hknown, hsame, .inl rfl⟩
    · exact ⟨entry, hknown, hsame, .inr ⟨parent, hup, hinherits⟩⟩

/-- A method is found if and only if it is offered. -/
theorem findMethod_isSome_iff : (findMethod name spec).isSome ↔ Offers name spec := by
  induction name using superclass_wellFounded.induction with
  | h name ih =>
    rw [findMethod_unroll, offers_unroll, ← declaredMethod_isSome_iff]
    cases declaredMethod name spec with
    | some index => simp
    | none =>
      cases hup : superclass name with
      | none => simp
      | some parent => simpa using ih parent hup

/-- What is found is declared below every other method that would do. -/
theorem findMethod_nearest {entry other : MethodEntry} (hfound : findMethod name spec = some id)
    (hdenoted : methodEntry? id = some entry) (hknown : other ∈ methodTable) (hsame : other.spec = spec)
    (hinherited : isSubclass name other.cls = true) : isSubclass entry.cls other.cls = true := by
  induction name using superclass_wellFounded.induction with
  | h name ih =>
    rw [findMethod_unroll] at hfound
    cases hdeclared : declaredMethod name spec with
    -- declared here, so every other one is further up, or here as well
    | some index =>
      rw [hdeclared] at hfound
      obtain ⟨entry', hhere, hcls, -⟩ := declaredMethod_eq_some hdeclared
      obtain rfl := Option.some.inj hfound
      rw [methodEntry?_of_index (List.getElem?_eq_some_iff.mp hhere).1, hhere] at hdenoted
      obtain rfl := Option.some.inj hdenoted
      rwa [hcls]
    | none =>
      rw [hdeclared] at hfound
      obtain ⟨parent, hup, hfound⟩ := Option.bind_eq_some_iff.mp hfound
      apply ih parent hup hfound
      rw [isSubclass_unroll, Bool.or_eq_true, beq_iff_eq, hup] at hinherited
      obtain rfl | hinherited := hinherited
      -- the other one is not declared here, for nothing is
      · have hdeclares := declaredMethod_isSome_iff.mpr ⟨other, hknown, hsame, rfl⟩
        rw [hdeclared] at hdeclares
        cases hdeclares
      · exact hinherited

/-- The identifier that a look-up on a class gives, and the method that it stands for. -/
structure Binds (name : String) (spec : MethodSpec) (id : MethodId) (entry : MethodEntry) : Prop where
  known : entry ∈ methodTable
  denoted : methodEntry? id = some entry
  same : entry.spec = spec
  inherited : isSubclass name entry.cls = true
  /-- Every other method that would do is declared further up. -/
  nearest : ∀ other ∈ methodTable, other.spec = spec → isSubclass name other.cls = true →
    isSubclass entry.cls other.cls = true

/-- An identifier stands for a method of the table. -/
theorem methodEntry?_mem {entry : MethodEntry} (hdenoted : methodEntry? id = some entry) :
    entry ∈ methodTable := by
  unfold methodEntry? at hdenoted
  split at hdenoted
  · cases hdenoted
  · exact List.mem_of_getElem? hdenoted

/-- What is found binds the name to the nearest method that would do. -/
theorem binds_of_findMethod (hfound : findMethod name spec = some id) :
    ∃ entry, Binds name spec id entry := by
  obtain ⟨entry, hdenoted, hsame, hinherited⟩ := findMethod_eq_some hfound
  exact ⟨entry, {
    known := methodEntry?_mem hdenoted
    denoted := hdenoted
    same := hsame
    inherited := hinherited
    nearest := fun _ hknown hsame hinherited => findMethod_nearest hfound hdenoted hknown hsame
      hinherited }⟩

/-! ## Calls through a class -/

/-- A call of a method on an object through a class, whatever kind of value it asks for. -/
inductive Nonvirtual (obj cls : Ref) (id : MethodId) (args : List Arg) : Call → Prop where
  | int : Nonvirtual obj cls id args (.callInt obj cls id args)
  | long : Nonvirtual obj cls id args (.callLong obj cls id args)
  | void : Nonvirtual obj cls id args (.callVoid obj cls id args)

namespace Answering

variable {thread : ThreadId} {rt : Runtime} {obj cls : Ref} {args : List Arg} {entry : MethodEntry}

/-- The name of the class that a reference leads to. -/
theorem run_classNameAt (hrefers : Refers rt cls (some (.cls name))) :
    (classNameAt cls).run.run rt = (.ok name, rt) := by
  unfold classNameAt
  rw [run_bind_of_ok (run_resolve hrefers)]
  rfl

/-- A look-up through the seam is the look-up on the class that the reference leads to. -/
theorem run_getMethodId (hclear : rt.pending? thread = none)
    (hrefers : Refers rt cls (some (.cls name)))
    (hfound : findMethod name spec = some id) :
    (answer thread (.getMethodId cls spec)).run.run rt = (.ok (some id), rt) := by
  show ((requireClear thread _ >>= fun _ => classNameAt cls >>= fun name => _) :
    Answering (Option MethodId)).run.run rt = _
  rw [run_bind_of_ok (run_requireClear hclear _), run_bind_of_ok (run_classNameAt hrefers), hfound]
  rfl

/-- The check of a class is the subclass test. -/
theorem run_checkClass_eq (hrefers : Refers rt cls (some (.cls name))) (entry : MethodEntry) :
    (checkClass entry (some cls)).run.run rt =
      (if isSubclass name entry.cls then .ok ()
        else .error (.unrelatedClass entry.cls entry.spec.name name), rt) := by
  unfold checkClass
  rw [run_bind_of_ok (run_classNameAt hrefers)]
  cases isSubclass name entry.cls <;> rfl

section Invoke

variable (hclear : rt.pending? thread = none) (hdenoted : methodEntry? id = some entry)
  (hisInstance : entry.spec.isStatic = false)
include hclear hdenoted hisInstance

/-- Up to the check of the class, a call of an instance method on an object goes through. -/
theorem run_invoke_eq (through : Option Ref) :
    (invoke thread (some obj) through id args).run.run rt =
      (checkClass entry through >>= fun _ => resolve obj >>= fun self =>
        args.mapM resolveArg >>= fun values =>
          runMethod thread entry.behaviour self values).run.run rt := by
  unfold invoke
  rw [run_bind_of_ok (run_requireClear hclear _), hdenoted]
  simp only [hisInstance, Option.isNone_some, ne_eq, not_true_eq_false, if_false]

/-- Through a class that inherits the method, the call is the call without a class. -/
theorem run_invoke_related (hrefers : Refers rt cls (some (.cls name)))
    (hrelated : isSubclass name entry.cls = true) :
    (invoke thread (some obj) (some cls) id args).run.run rt =
      (invoke thread (some obj) none id args).run.run rt := by
  have hpasses : (checkClass entry none).run.run rt = (.ok (), rt) := rfl
  rw [run_invoke_eq hclear hdenoted hisInstance, run_invoke_eq hclear hdenoted hisInstance,
    run_bind_of_ok (run_checkClass hrefers hrelated), run_bind_of_ok hpasses]

/-- Through any other class it ends there, with nothing changed. -/
theorem run_invoke_unrelated (hrefers : Refers rt cls (some (.cls name)))
    (hunrelated : isSubclass name entry.cls = false) :
    (invoke thread (some obj) (some cls) id args).run.run rt =
      (.error (.unrelatedClass entry.cls entry.spec.name name), rt) := by
  have hrefused := run_checkClass_eq hrefers entry
  rw [hunrelated] at hrefused
  rw [run_invoke_eq hclear hdenoted hisInstance]
  exact run_bind_of_error hrefused

end Invoke

/-! ## What a call that passed can still end in -/

/-- A stale reference was used. -/
def Stale (cause : Fatal) (_ : Runtime) : Prop := ∃ r, cause = .staleUse r

/-- A reference leads somewhere, or it is stale. -/
theorem comes_resolve (r : Ref) : Comes (resolve r) (fun _ _ => True) Stale rt := by
  unfold resolve
  split
  · exact comes_pure trivial
  · refine comes_get ?_
    split
    · exact comes_pure trivial
    · exact comes_throw ⟨r, rfl⟩

/-- So does an argument, if it is one. -/
theorem comes_resolveArg (arg : Arg) : Comes (resolveArg arg) (fun _ _ => True) Stale rt := by
  cases arg with
  | int value => exact comes_pure trivial
  | long value => exact comes_pure trivial
  | object r =>
    exact comes_bind ((comes_resolve r).mono (fun _ _ _ => comes_pure trivial) fun _ _ hstale => hstale)

/-- So do arguments in a row. -/
theorem comes_resolveArgs (args : List Arg) :
    Comes (args.mapM resolveArg) (fun _ _ => True) Stale rt := by
  induction args generalizing rt with
  | nil => exact comes_pure trivial
  | cons arg rest ih =>
    rw [List.mapM_cons]
    refine comes_bind ((comes_resolveArg arg).mono (fun _ _ _ => ?_) fun _ _ hstale => hstale)
    exact comes_bind (ih.mono (fun _ _ _ => comes_pure trivial) fun _ _ hstale => hstale)

/-- Running a method is no fatal use: what it throws becomes pending. -/
theorem comes_runMethod {behaviour : Behaviour} {self : Option Object} {values : List ArgValue}
    {E : Fatal → Runtime → Prop} :
    Comes (runMethod thread behaviour self values) (fun _ _ => True) E rt := by
  have hdispatched : Comes (Code.dispatch behaviour self values) (fun _ => Change rt behaviour)
      (Code.Stops rt behaviour) rt := Code.comes_dispatch self values behaviour
  unfold Comes at hdispatched
  refine comes_get ?_
  cases hran : (Code.dispatch behaviour self values).run.run rt with
  | mk outcome rt' =>
    rw [hran] at hdispatched
    refine comes_bind (comes_set ?_)
    cases outcome with
    | ok value => exact comes_pure trivial
    | error stop =>
      cases stop with
      | thrown thrown => exact comes_next rfl (comes_pure trivial)
      -- a method never stops that way
      | fatal cause => exact absurd rfl (hdispatched.managed cause)

/-- A call of an instance method without a class ends in a value, or in the use of a stale reference. -/
theorem comes_invoke (hclear : rt.pending? thread = none) (hdenoted : methodEntry? id = some entry)
    (hisInstance : entry.spec.isStatic = false) :
    Comes (invoke thread (some obj) none id args) (fun _ _ => True) Stale rt := by
  unfold Comes
  rw [run_invoke_eq hclear hdenoted hisInstance]
  refine comes_bind (comes_pure ?_)
  refine comes_bind ((comes_resolve obj).mono (fun self _ _ => ?_) fun _ _ hstale => hstale)
  exact comes_bind ((comes_resolveArgs args).mono (fun _ _ _ => comes_runMethod)
    fun _ _ hstale => hstale)

end Answering

section Nonvirtual

open Answering

variable {thread : ThreadId} {rt : Runtime} {obj cls : Ref} {args : List Arg} {entry : MethodEntry}
  {request : Call} (hnonvirtual : Nonvirtual obj cls id args request)
  (hclear : rt.pending? thread = none) (hdenoted : methodEntry? id = some entry)
  (hisInstance : entry.spec.isStatic = false) (hrefers : Refers rt cls (some (.cls name)))
include hnonvirtual hclear hdenoted hisInstance hrefers

/-- Through a class that inherits the method, a call is not refused for its class. -/
theorem answer_related (hrelated : isSubclass name entry.cls = true) :
    Comes (answer thread request) (fun _ _ => True) Stale rt := by
  have hinvoked : Comes (invoke thread (some obj) (some cls) id args) (fun _ _ => True) Stale rt := by
    unfold Comes
    rw [run_invoke_related hclear hdenoted hisInstance hrefers hrelated]
    exact comes_invoke hclear hdenoted hisInstance
  cases hnonvirtual with
  | int =>
    refine comes_bind (hinvoked.mono (fun value _ _ => ?_) fun _ _ hstale => hstale)
    cases value <;> exact comes_pure trivial
  | long =>
    refine comes_bind (hinvoked.mono (fun value _ _ => ?_) fun _ _ hstale => hstale)
    cases value <;> exact comes_pure trivial
  | void => exact comes_bind (hinvoked.mono (fun _ _ _ => comes_pure trivial) fun _ _ hstale => hstale)

/-- Through a class that does not, the call is a fatal use, and nothing is changed by it. -/
theorem answer_unrelated (hunrelated : isSubclass name entry.cls = false) :
    (answer thread request).run.run rt =
      (.error (.unrelatedClass entry.cls entry.spec.name name), rt) := by
  have hrefused : (invoke thread (some obj) (some cls) id args).run.run rt =
      (.error (.unrelatedClass entry.cls entry.spec.name name), rt) :=
    run_invoke_unrelated hclear hdenoted hisInstance hrefers hunrelated
  cases hnonvirtual <;> exact run_bind_of_error hrefused

end Nonvirtual

/-! ## All of it -/

/-- The walk from any name ends at the root, within two steps. Being a subclass is a partial order, and
it is to be met on the walk. A look-up finds a method if and only if the table offers one on the walk,
and then the nearest one. Its identifier, got through a reference to the class, passes the check of a
class if and only if that inherits from the declaring one, as every subclass of the class does; so calls
of it on an object go on through such a class, and end as a fatal use through any other one. -/
theorem found_is_callable (name : String) (spec : MethodSpec) :
    (rank name ≤ 2 ∧ climb (rank name) name = some ClassName.object ∧
      climb (rank name + 1) name = none) ∧
    ((∀ ancestor, isSubclass name ancestor = true ↔ ∃ steps, climb steps name = some ancestor) ∧
      isSubclass name name = true ∧
      (∀ other, isSubclass name other = true → isSubclass other name = true → name = other) ∧
      ∀ middle top, isSubclass name middle = true → isSubclass middle top = true →
        isSubclass name top = true) ∧
    ((findMethod name spec).isSome ↔ Offers name spec) ∧
    ∀ id, findMethod name spec = some id → ∃ entry, Binds name spec id entry ∧
      (∀ thread rt cls, rt.pending? thread = none → Refers rt cls (some (.cls name)) →
        (answer thread (.getMethodId cls spec)).run.run rt = (.ok (some id), rt)) ∧
      (∀ through, isSubclass through name = true → isSubclass through entry.cls = true) ∧
      (∀ rt cls through, Refers rt cls (some (.cls through)) →
        (Answering.checkClass entry (some cls)).run.run rt =
          (if isSubclass through entry.cls then .ok ()
            else .error (.unrelatedClass entry.cls spec.name through), rt)) ∧
      ∀ thread rt obj cls args request through, Nonvirtual obj cls id args request →
        rt.pending? thread = none → spec.isStatic = false → Refers rt cls (some (.cls through)) →
        (isSubclass through entry.cls = true →
          Comes (answer thread request) (fun _ _ => True) Answering.Stale rt) ∧
        (isSubclass through entry.cls = false → (answer thread request).run.run rt =
          (.error (.unrelatedClass entry.cls spec.name through), rt)) := by
  refine ⟨⟨rank_le name, climb_rank name, climb_beyond name⟩,
    ⟨fun _ => isSubclass_iff_climb, isSubclass_refl name, fun _ => isSubclass_antisymm,
      fun _ _ => isSubclass_trans⟩,
    findMethod_isSome_iff, fun id hfound => ?_⟩
  -- what the look-up found is bound in a class at or above this one, and every later check looks at
  -- that class
  obtain ⟨entry, hbinds⟩ := binds_of_findMethod hfound
  refine ⟨entry, hbinds, ?_, ?_, ?_, ?_⟩
  · exact fun thread rt cls hclear hrefers => Answering.run_getMethodId hclear hrefers hfound
  · exact fun through hbelow => isSubclass_trans hbelow hbinds.inherited
  · obtain rfl := hbinds.same
    exact fun rt cls through hrefers => Answering.run_checkClass_eq hrefers entry
  · intro thread rt obj cls args request through hnonvirtual hclear hisInstance hrefers
    obtain rfl := hbinds.same
    exact ⟨answer_related hnonvirtual hclear hbinds.denoted hisInstance hrefers,
      answer_unrelated hnonvirtual hclear hbinds.denoted hisInstance hrefers⟩

/-- References to the class of caches and to the root. -/
def twoClasses : RefTable :=
  ((RefTable.insert {} (.cls ClassName.interopCache) .localRef).2.insert
    (.cls ClassName.object) .localRef).2

/-- The method of a cache that its superclass declares: it passes through the class of caches, and not
through the root. -/
theorem found_is_callable_on_a_cache :
    ∃ id, findMethod ClassName.interopCache Method.inOp = some id ∧
      Comes (answer 0 (.callInt .null ⟨1⟩ id [])) (fun _ _ => True) Answering.Stale
        { refs := twoClasses } ∧
      (answer 0 (.callInt .null ⟨2⟩ id [])).run.run { refs := twoClasses } =
        (.error (.unrelatedClass ClassName.interopTarget Method.inOp.name ClassName.object),
          { refs := twoClasses }) := by
  -- the class declares no such method, and the one it extends does
  have hfound : findMethod ClassName.interopCache Method.inOp = some ⟨9⟩ := by
    have hundeclared : declaredMethod ClassName.interopCache Method.inOp = none := by decide
    have hup : superclass ClassName.interopCache = some ClassName.interopTarget := by decide
    rw [findMethod_unroll, hundeclared, hup]
    exact findMethod_declared (by decide)
  obtain ⟨-, -, -, hcallable⟩ := found_is_callable ClassName.interopCache Method.inOp
  obtain ⟨entry, hbinds, -, hbelow, -, hcalls⟩ := hcallable ⟨9⟩ hfound
  have hdeclaring : entry.cls = ClassName.interopTarget := by
    have hdenoted := hbinds.denoted
    obtain rfl : _ = entry := Option.some.inj hdenoted
    rfl
  have hcache : Refers { refs := twoClasses } ⟨1⟩ (some (.cls ClassName.interopCache)) :=
    .inr (by decide)
  have hroot : Refers { refs := twoClasses } ⟨2⟩ (some (.cls ClassName.object)) := .inr (by decide)
  -- the root of all classes is above the declaring one, not below it
  have hunrelated : isSubclass ClassName.object entry.cls = false := by
    rw [hdeclaring, isSubclass_unroll]
    decide
  refine ⟨⟨9⟩, hfound, ?_, ?_⟩
  · exact (hcalls 0 _ .null ⟨1⟩ [] _ _ .int rfl rfl hcache).1 (hbelow _ (isSubclass_refl _))
  · rw [← hdeclaring]
    exact (hcalls 0 _ .null ⟨2⟩ [] _ _ .int rfl rfl hroot).2 hunrelated

end GridBridge.Managed
