import GridBridge.Proofs.Managed.Dispatch
import GridBridge.Proofs.Managed.Methods

/-!
# A method that throws leaves everything as it was

A call of a method ends in a value or in an exception and in nothing else, whatever it is called on and
with. **`dispatch_atomic`** says what an exception leaves behind: the runtime as it was, less the one
message fault that `getMessage` uses up on a throwable. The exception can be asked in turn
(**`Thrown.Answers`**), so that a report of it never fails on its class.
-/

namespace GridBridge.Managed

open Protocol

/-! ## The classes of exceptions -/

theorem isKnownClass_thrown (cls : ThrownClass) : isKnownClass cls.name = true := by
  cases cls <;> decide

theorem superclass_thrown (cls : ThrownClass) : superclass cls.name = some ClassName.throwable := by
  cases cls <;> decide

theorem lineage_of_superclass {name parent : String} (h : superclass name = some parent) :
    lineage name = name :: lineage parent := by
  rw [lineage]
  split
  · rename_i hfound
    rw [h, Option.some.injEq] at hfound
    rw [hfound]
  · rename_i hnone
    rw [h] at hnone
    exact absurd hnone (Option.some_ne_none parent)

theorem lineage_throwable :
    lineage ClassName.throwable = [ClassName.throwable, ClassName.object] := by
  have habove : superclass ClassName.throwable = some ClassName.object := by decide
  have htop : superclass ClassName.object = none := by decide
  rw [lineage_of_superclass habove, lineage]
  split
  · rename_i hfound
    rw [htop] at hfound
    cases hfound
  · rfl

theorem lineage_thrown (cls : ThrownClass) :
    lineage cls.name = [cls.name, ClassName.throwable, ClassName.object] := by
  rw [lineage_of_superclass (superclass_thrown cls), lineage_throwable]

/-- A method is found where it is declared. -/
theorem findMethod_declared {cls : String} {spec : MethodSpec} {index : Nat}
    (hdeclared : declaredMethod cls spec = some index) :
    findMethod cls spec = some ⟨UInt64.ofNat (index + 1)⟩ := by
  unfold findMethod
  rw [lineage, List.findSome?_cons, hdeclared]
  rfl

/-- An exception inherits what throwables declare: no class of exceptions declares it again. -/
theorem findMethod_thrown (cls : ThrownClass) {spec : MethodSpec} {index : Nat}
    (hdeclared : declaredMethod ClassName.throwable spec = some index) :
    findMethod cls.name spec = some ⟨UInt64.ofNat (index + 1)⟩ := by
  have hown : declaredMethod cls.name spec = none := by
    refine List.findIdx?_eq_none_iff.mpr fun entry hmem => ?_
    have hother : ∀ entry ∈ methodTable, entry.cls ≠ cls.name := by cases cls <;> decide
    rw [beq_eq_false_iff_ne.mpr (hother entry hmem), Bool.false_and]
  unfold findMethod
  rw [lineage_thrown, List.findSome?_cons, hown, List.findSome?_cons, hdeclared]
  rfl

/-- No slash is left in a name with dots. -/
theorem slash_not_mem_dotted (name : String) : '/' ∉ (dotted name).toList := by
  unfold dotted
  rw [String.toList_map, List.mem_map]
  rintro ⟨c, -, hsame⟩
  split at hsame
  · exact absurd hsame (by decide)
  · contradiction

/-! ## Asking an exception -/

/-- The method of the table that a class finds under this name and signature. -/
def methodOf? (cls : String) (spec : MethodSpec) : Option MethodEntry :=
  (findMethod cls spec).bind methodEntry?

/-- The message of an exception, or the fault that is injected into its look-up. -/
theorem Code.run_getMessage (thrown : Thrown) (args : List ArgValue) (rt : Runtime) :
    (Code.dispatch .throwableGetMessage (some (.throwable thrown)) args).run.run rt =
      match rt.faults.messageFaults.take? with
      | none => (.ok (.object (some (.str thrown.message))), rt)
      | some left => (.error (.throwing .outOfMemory "Java heap space"),
          { rt with faults := { rt.faults with messageFaults := left } }) := by
  have hreceiver : (Code.throwableReceiver (some (.throwable thrown))).run.run rt = (.ok thrown, rt) :=
    rfl
  show (Code.getMessage _).run.run rt = _
  unfold Code.getMessage
  rw [run_bind_of_ok hreceiver, run_get_bind]
  cases rt.faults.messageFaults.take? <;> rfl

namespace Thrown

/-- What an exception answers: it is a throwable, of a known class, on which the accessors of
throwables are found and give what it carries, and its class tells its name with dots. -/
structure Answers (thrown : Thrown) : Prop where
  known : isKnownClass (Object.throwable thrown).className = true
  throwable : isSubclass (Object.throwable thrown).className ClassName.throwable = true
  dotted : '/' ∉ (dotted thrown.cls.name).toList
  /-- `getMessage` is there, and gives the message unless a fault is injected. -/
  getMessage : ∃ entry, methodOf? (Object.throwable thrown).className Method.getMessage = some entry ∧
    ∀ args rt, (Code.dispatch entry.behaviour (some (.throwable thrown)) args).run.run rt =
      match rt.faults.messageFaults.take? with
      | none => (.ok (.object (some (.str thrown.message))), rt)
      | some left => (.error (.throwing .outOfMemory "Java heap space"),
          { rt with faults := { rt.faults with messageFaults := left } })
  toString : ∃ entry, methodOf? (Object.throwable thrown).className Method.toString = some entry ∧
    ∀ args rt, (Code.dispatch entry.behaviour (some (.throwable thrown)) args).run.run rt =
      (.ok (.object (some (.str s!"{Managed.dotted thrown.cls.name}: {thrown.message}"))), rt)
  getName : ∃ entry, methodOf? ClassName.cls Method.getName = some entry ∧
    ∀ args rt, (Code.dispatch entry.behaviour
        (some (.cls (Object.throwable thrown).className)) args).run.run rt =
      (.ok (.object (some (.str (Managed.dotted thrown.cls.name)))), rt)

theorem answers (thrown : Thrown) : thrown.Answers where
  known := isKnownClass_thrown thrown.cls
  throwable := by
    rw [isSubclass_iff]
    show _ ∈ lineage thrown.cls.name
    rw [lineage_thrown]
    simp
  dotted := slash_not_mem_dotted _
  getMessage := by
    -- a thrown class declares nothing itself, so the look-up ends at the root of all that can be
    -- thrown
    have hfound : findMethod thrown.cls.name Method.getMessage = some ⟨UInt64.ofNat (1 + 1)⟩ :=
      findMethod_thrown thrown.cls (by decide)
    refine ⟨⟨ClassName.throwable, Method.getMessage, .throwableGetMessage⟩, ?_, fun args rt => ?_⟩
    · show (findMethod thrown.cls.name Method.getMessage).bind methodEntry? = _
      rw [hfound]
      decide
    · exact Code.run_getMessage thrown args rt
  toString := by
    have hfound : findMethod thrown.cls.name Method.toString = some ⟨UInt64.ofNat (0 + 1)⟩ :=
      findMethod_thrown thrown.cls (by decide)
    refine ⟨⟨ClassName.throwable, Method.toString, .throwableToString⟩, ?_, fun args rt => rfl⟩
    show (findMethod thrown.cls.name Method.toString).bind methodEntry? = _
    rw [hfound]
    decide
  getName := by
    refine ⟨⟨ClassName.cls, Method.getName, .classGetName⟩, ?_, fun args rt => rfl⟩
    have hfound : findMethod ClassName.cls Method.getName = some ⟨UInt64.ofNat (2 + 1)⟩ :=
      findMethod_declared (by decide)
    unfold methodOf?
    rw [hfound]
    decide

end Thrown

/-! ## What a throw leaves behind -/

/-- The runtime after a method has thrown: as it was, or with one message fault used up. Only
`getMessage` uses one up, and only on a throwable. -/
inductive Runtime.Spared (rt : Runtime) (behaviour : Behaviour) (self : Option Object) :
    Runtime → Prop where
  | unchanged : Spared rt behaviour self rt
  | faulted {asked : Thrown} {left : Budget} (hlooks : behaviour = .throwableGetMessage)
      (hreceiver : self = some (.throwable asked))
        (htaken : rt.faults.messageFaults.take? = some left) :
      Spared rt behaviour self { rt with faults := { rt.faults with messageFaults := left } }

namespace Code

variable {rt rt' : Runtime} {behaviour : Behaviour} {self : Option Object} {args : List ArgValue}

/-- A message fault is used up on a throwable only. -/
theorem receiver_of_changed {outcome : Except Stop CallValue}
    (hran : (dispatch .throwableGetMessage self args).run.run rt = (outcome, rt')) :
    rt' = rt ∨ ∃ asked, self = some (.throwable asked) := by
  rcases self with _ | (_ | _ | asked | _ | _ | _)
  case some.throwable => exact .inr ⟨asked, rfl⟩
  all_goals
    cases hran
    exact .inl rfl

/-- A method that stops has thrown, and it has spared the runtime. -/
theorem Stops.thrown {stop : Stop} (hstops : Stops rt behaviour stop rt')
    (hran : (dispatch behaviour self args).run.run rt = (.error stop, rt')) :
    ∃ thrown, stop = .thrown thrown ∧ rt.Spared behaviour self rt' := by
  cases stop with
  | fatal cause => exact absurd rfl (hstops.managed cause)
  | thrown thrown =>
    refine ⟨thrown, rfl, ?_⟩
    by_cases hlooks : behaviour = .throwableGetMessage
    · subst hlooks
      obtain rfl | ⟨asked, hreceiver⟩ := receiver_of_changed hran
      · exact .unchanged
      · cases hstops.change with
        | nothing => exact .unchanged
        | faulted htaken => exact .faulted rfl hreceiver htaken
        | executed hnow _ => cases hnow <;> contradiction
    · rw [hstops.unchanged hlooks]
      exact .unchanged

end Code

/-- **Total and atomic.** Whatever a method of the table does, and whatever receiver and arguments it
is called with, it gives a value or throws. If it throws, the runtime is spared, and the exception
answers for itself. -/
theorem dispatch_atomic (behaviour : Behaviour) (self : Option Object) (args : List ArgValue)
    (rt : Runtime) :
    (∃ value rt', (Code.dispatch behaviour self args).run.run rt = (.ok value, rt')) ∨
      ∃ thrown rt', (Code.dispatch behaviour self args).run.run rt = (.error (.thrown thrown), rt') ∧
        rt.Spared behaviour self rt' ∧ thrown.Answers := by
  have hcomes : Comes (Code.dispatch behaviour self args) (fun _ => Change rt behaviour)
      (Code.Stops rt behaviour) rt := Code.comes_dispatch self args behaviour
  unfold Comes at hcomes
  cases hran : (Code.dispatch behaviour self args).run.run rt with
  | mk outcome rt' =>
    rw [hran] at hcomes
    cases outcome with
    | ok value => exact .inl ⟨value, rt', rfl⟩
    | error stop =>
      obtain ⟨thrown, rfl, hspared⟩ := Code.Stops.thrown hcomes hran
      exact .inr ⟨thrown, rt', rfl, hspared, thrown.answers⟩

end GridBridge.Managed
