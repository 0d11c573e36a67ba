import GridBridge.Proofs.Managed.Frame

/-!
# While nothing has gone wrong

**`Underway`** says of an operation that it has only used things up so far, and that nothing is pending.
Each call that operations on a started runtime make has a rule here: a method that throws leaves
instances, caches and tasks as they were, and one that gives a value has changed the grid or the tasks
and nothing beside them.
-/

namespace GridBridge.Managed

open Protocol Seam Answering

variable {thread : ThreadId} {rt₀ rt rt' : Runtime}

/-! ## What references are known to lead to -/

/-- What a marked reference is found to lead to. -/
theorem Refers.eq_of_marks {rt : Runtime} {r : Ref} {found found' : Option Object}
    (h : Refers rt r found) (hmarks : rt.refs.Marks r found') : found = found' := by
  -- only the null reference stands for nothing, and it is never in the table
  cases found' with
  | none =>
    obtain rfl : r = .null := hmarks
    obtain ⟨_, hnone⟩ | ⟨hnonnull, _⟩ := h
    · exact hnone
    · exact absurd hnonnull (by decide)
  | some object =>
    obtain ⟨hnonnull, _, hleads⟩ := hmarks
    obtain ⟨hnull, _⟩ | ⟨_, hsome, hget⟩ := h
    · exact absurd (hnull.symm.trans hnonnull) (by decide)
    · unfold RefTable.get? at hget
      cases hlive : rt.refs.find? r with
      | none =>
        rw [hlive] at hget
        rw [← hget] at hsome
        cases hsome
      | some e =>
        obtain ⟨hmem, htoken⟩ := RefTable.mem_of_find? hlive
        rw [hlive] at hget
        rw [← hget, ← hleads e hmem htoken]
        rfl

/-- What an argument means to one who knows what its reference was handed out for. -/
def RefTable.Means (t : RefTable) : Arg → ArgValue → Prop
  | .int value, meant => meant = .int value
  | .long value, meant => meant = .long value
  | .object r, meant => ∃ found, meant = .object found ∧ t.Marks r found

theorem resolved_eq_of_means {args : List Arg} {meant values : List ArgValue}
    (hmeans : List.Forall₂ rt.refs.Means args meant)
    (hresolved : List.Forall₂ (Resolved rt) args values) : values = meant := by
  -- along the arguments; an integer is its own value, and an object is what its reference marks
  induction hmeans generalizing values with
  | nil =>
    cases hresolved
    rfl
  | @cons arg meant _ _ hfirst _ ih =>
    cases hresolved with
    | @cons _ value _ _ hfirst' hrest' =>
      have hsame : value = meant := by
        cases arg with
        | int _ => exact hfirst'.trans hfirst.symm
        | long _ => exact hfirst'.trans hfirst.symm
        | object r =>
          obtain ⟨found, rfl, hmarks⟩ := hfirst
          obtain ⟨found', rfl, hrefers⟩ := hfirst'
          rw [hrefers.eq_of_marks hmarks]
      rw [hsame, ih hrest']

/-- Whether an object is what handles of the class are made for. -/
def Object.isTarget : Object → TargetClass → Bool
  | .processor _, .processor | .cache _, .cache => true
  | _, _ => false

/-! ## While nothing has gone wrong -/

/-- On the way from one state to the other, nothing but what calls use up has changed, and nothing is
pending on the thread. -/
structure Underway (thread : ThreadId) (rt₀ rt : Runtime) : Prop where
  touched : Touched thread rt₀ rt
  sound : rt.refs.Sound
  clear : rt.pending? thread = none
  quiet : rt.outbox = []

/-- A call was carried out and nothing is pending, or nothing was changed. -/
def Carried (thread : ThreadId) (rt₀ rt : Runtime) : Prop :=
  rt.outbox = [] ∧ (rt.pending? thread = none ∨ Touched thread rt₀ rt)

namespace Underway

variable (h : Underway thread rt₀ rt)
include h

theorem withRefs {refs : RefTable} (hsince : rt.refs.Since refs) :
    Underway thread rt₀ { rt with refs } where
  touched := h.touched.trans (.of_refs hsince)
  sound := hsince.sound h.sound
  clear := h.clear
  quiet := h.quiet

theorem quiet_before : rt₀.outbox = [] := h.touched.outbox.symm.trans h.quiet

/-- The same with another grid before and after. -/
theorem withGrid (grid : Grid) : Underway thread { rt₀ with grid } { rt with grid } where
  touched := h.touched.withGrid grid
  sound := h.sound
  clear := h.clear
  quiet := h.quiet

theorem wp_attach {Q : Except Status Unit → Runtime → Prop}
    (hok : ∀ rt', Underway thread rt₀ rt' → Q (.ok ()) rt')
    (hrefused : rt₀.admits = false → ∀ code, Q (.error code) rt) :
    (Script.ask .attach).wp (silent thread) Q rt := by
  refine wp_silent (ends_bind (ends_get (ends_bind (ends_set (ends_pure fun _ => ?_)))))
  show (rt.attach thread).2.outbox = [] ∧ Q (rt.attach thread).1 (rt.attach thread).2
  -- whether a thread is admitted does not change while the runtime stays up
  have hadmits := (rt.isOk_attach thread).trans h.touched.admits
  unfold Runtime.attach at hadmits ⊢
  split
  · rename_i hdown
    rw [if_pos hdown] at hadmits
    exact ⟨h.quiet, hrefused hadmits.symm _⟩
  · rename_i hup
    rw [if_neg hup] at hadmits
    split
    · rename_i hdenied
      rw [if_pos hdenied] at hadmits
      exact ⟨h.quiet, hrefused hadmits.symm _⟩
    · have htouched := h.touched.trans (.attachThread thread rt)
      have hquiet : (rt.attachThread thread).outbox = [] := by
        rw [Touched.outbox (.attachThread thread rt), h.quiet]
      refine ⟨hquiet, hok _ ⟨htouched, ?_, ?_, hquiet⟩⟩
      · unfold Runtime.attachThread
        split <;> exact h.sound
      · unfold Runtime.attachThread
        split <;> exact h.clear

theorem wp_newString {text : String} {Q : Ref → Runtime → Prop}
    (hQ : ∀ r rt', Underway thread rt₀ rt' → rt.refs.Since rt'.refs →
      rt'.refs.Marks r (some (.str text)) → Q r rt') :
    (Script.ask (.newString text)).wp (silent thread) Q rt := by
  refine wp_silent (ends_bind (ends_requireClear.mono ?_))
  rintro _ _ rfl
  refine (ends_localRef (some (.str text))).mono fun r rt' hmade hroom => ?_
  obtain ⟨refs, rfl, hsince, hmarks⟩ := hmade hroom
  exact ⟨h.quiet, hQ r _ (h.withRefs hsince) hsince (hmarks h.sound)⟩

theorem wp_deleteLocalRef {r : Ref} {Q : Unit → Runtime → Prop}
    (hQ : ∀ rt', Underway thread rt₀ rt' → rt.refs.Since rt'.refs → rt'.grid = rt.grid → Q () rt') :
    (Script.ask (.deleteLocalRef r)).wp (silent thread) Q rt := by
  refine wp_silent ((ends_deleteRef r .localRef).mono ?_)
  rintro _ _ ⟨refs, rfl, hsince⟩ _
  exact ⟨h.quiet, hQ _ (h.withRefs hsince) hsince rfl⟩

/-- A reference is made durable, unless a fault is injected: then it is used up, and an exception is left
pending. -/
theorem wp_newGlobalRef {r : Ref} {object : Object} {Q : Ref → Runtime → Prop}
    (hmarks : rt.refs.Marks r (some object))
    (hmade : ∀ target rt', rt'.refs.Marks target (some object) → Underway thread rt₀ rt' → Q target rt')
    (hfault : rt₀.faults.globalRefFaults ≠ .count 0 →
      ∀ rt', Touched thread rt₀ rt' → Q .null rt') :
    (Script.ask (.newGlobalRef r)).wp (silent thread) Q rt := by
  refine wp_silent (ends_bind (ends_get ?_))
  split
  · rename_i left htaken
    -- faults are only used up, so one that strikes was there at the beginning
    have harmed : rt₀.faults.globalRefFaults ≠ .count 0 := by
      intro hdisarmed
      have hspends := h.touched.globals
      cases hnow : rt.faults.globalRefFaults with
      | endless =>
        rw [hdisarmed, hnow] at hspends
        exact hspends
      | count n =>
        rw [hdisarmed, hnow] at hspends
        obtain rfl : n = 0 := Nat.le_zero.mp hspends
        rw [hnow] at htaken
        cases htaken
    refine ends_bind (ends_set
      (ends_bind (ends_modify (ends_pure fun _ => ⟨h.quiet, hfault harmed _ ?_⟩))))
    have hused : Touched thread rt
        { rt with faults := { rt.faults with globalRefFaults := left } } :=
      { Touched.refl thread rt with same := rfl, globals := Budget.spends_of_take? htaken }
    exact (h.touched.trans hused).raise _
  · refine ends_bind (ends_resolve.mono ?_)
    rintro found _ ⟨rfl, hrefers⟩
    rw [hrefers.eq_of_marks hmarks]
    refine ends_bind (ends_get (ends_bind (ends_set (ends_pure fun hroom => ⟨h.quiet, ?_⟩))))
    exact hmade _ _ (h.sound.marks_token hroom object .globalRef)
      (h.withRefs (.made .refl hroom object .globalRef))

section Methods

variable {method : MethodId} {args : List Arg} {entry : MethodEntry}
  (hmethod : methodEntry? method = some entry)
include hmethod

/-- A method that gives an object: it is handed out as a local reference, or what was thrown is
pending. -/
theorem ends_refOf_invoke (receiver : Option Ref) {meant : List ArgValue}
    {G : Option Object → Grid → Prop} {S : Prop} {Q : Ref → Runtime → Prop}
    (hmeans : List.Forall₂ rt.refs.Means args meant)
    (hgives : ∀ self, (receiver = none → self = none) → (∀ r, receiver = some r → Refers rt r self) →
      (Code.dispatch entry.behaviour self meant).Gives rt G S)
    (hvalue : ∀ found r rt', G found rt'.grid → Underway thread { rt₀ with grid := rt'.grid } rt' →
      rt.refs.Since rt'.refs → rt'.refs.Marks r found → Q r rt')
    (hthrown : S → ∀ rt', Touched thread rt₀ rt' → Q .null rt') :
    Ends (do refOf (← invoke thread receiver none method args))
      (fun r rt' => rt'.refs.next ≤ 2 ^ 64 → rt'.outbox = [] ∧ Q r rt') rt := by
  -- the method sees the meant values, so what it gives is known before it is called
  refine ends_bind (ends_invoke hmethod fun self values hnone hself hresolved => ends_runMethod_of ?_)
  rw [resolved_eq_of_means hmeans hresolved]
  refine (hgives self hnone hself).mono ?_ ?_
  · rintro value rt' ⟨found, grid, rfl, rfl, hgiven⟩
    refine (ends_localRef found).mono fun r rt'' hmade hroom => ?_
    obtain ⟨refs, rfl, hsince, hmarks⟩ := hmade hroom
    exact ⟨h.quiet, hvalue found r _ hgiven ((h.withGrid grid).withRefs hsince) hsince (hmarks h.sound)⟩
  -- what is thrown stays pending, and no reference is made
  · rintro _ _ ⟨rfl, hstopped⟩ thrown _
    refine ends_pure fun _ => ?_
    have htouched := h.touched.raise thrown
    exact ⟨h.quiet, hthrown hstopped _ htouched⟩

theorem wp_callStatic {cls : Ref} {meant : List ArgValue} {G : Option Object → Grid → Prop} {S : Prop}
    {Q : Ref → Runtime → Prop} (hmeans : List.Forall₂ rt.refs.Means args meant)
    (hgives : (Code.dispatch entry.behaviour none meant).Gives rt G S)
    (hvalue : ∀ found r rt', G found rt'.grid → Underway thread { rt₀ with grid := rt'.grid } rt' →
      rt.refs.Since rt'.refs → rt'.refs.Marks r found → Q r rt')
    (hthrown : S → ∀ rt', Touched thread rt₀ rt' → Q .null rt') :
    (Script.ask (.callStatic cls method args)).wp (silent thread) Q rt := by
  refine wp_silent (h.ends_refOf_invoke hmethod none hmeans ?_ hvalue hthrown)
  intro self hnone _
  rw [hnone rfl]
  exact hgives

theorem wp_callObject {obj : Ref} {self : Option Object} {meant : List ArgValue}
    {G : Option Object → Grid → Prop} {S : Prop} {Q : Ref → Runtime → Prop}
    (htarget : rt.refs.Marks obj self) (hmeans : List.Forall₂ rt.refs.Means args meant)
    (hgives : (Code.dispatch entry.behaviour self meant).Gives rt G S)
    (hvalue : ∀ found r rt', G found rt'.grid → Underway thread { rt₀ with grid := rt'.grid } rt' →
      rt.refs.Since rt'.refs → rt'.refs.Marks r found → Q r rt')
    (hthrown : S → ∀ rt', Touched thread rt₀ rt' → Q .null rt') :
    (Script.ask (.callObject obj method args)).wp (silent thread) Q rt := by
  refine wp_silent (h.ends_refOf_invoke hmethod (some obj) hmeans ?_ hvalue hthrown)
  intro self' _ hself
  rw [(hself obj rfl).eq_of_marks htarget]
  exact hgives

section Values

variable (hoperates : entry.behaviour.operates = true) {obj cls : Ref}
include hoperates

/-- A method that is called through a class for a value. -/
theorem ends_invoke_value :
    Ends (invoke thread (some obj) (some cls) method args) (fun _ rt' => Carried thread rt₀ rt')
      rt := by
  refine ends_invoke hmethod fun self values _ _ _ => ends_runMethod_of ?_
  refine (Code.comes_operates rt hoperates self values).mono ?_ ?_
  · rintro value _ ⟨grid, tasks, rfl⟩
    exact ⟨h.quiet, .inl h.clear⟩
  · rintro _ _ rfl thrown _
    exact ⟨h.quiet, .inr (h.touched.raise thrown)⟩

theorem wp_callInt {Q : Int32 → Runtime → Prop}
    (hQ : ∀ value rt', Carried thread rt₀ rt' → Q value rt') :
    (Script.ask (.callInt obj cls method args)).wp (silent thread) Q rt := by
  refine wp_silent (ends_bind ((h.ends_invoke_value hmethod hoperates).mono ?_))
  intro value rt' hcarried
  cases value <;> exact ends_pure fun _ => ⟨hcarried.1, hQ _ rt' hcarried⟩

theorem wp_callLong {Q : Int64 → Runtime → Prop}
    (hQ : ∀ value rt', Carried thread rt₀ rt' → Q value rt') :
    (Script.ask (.callLong obj cls method args)).wp (silent thread) Q rt := by
  refine wp_silent (ends_bind ((h.ends_invoke_value hmethod hoperates).mono ?_))
  intro value rt' hcarried
  cases value <;> exact ends_pure fun _ => ⟨hcarried.1, hQ _ rt' hcarried⟩

theorem wp_callVoid {Q : Unit → Runtime → Prop}
    (hQ : ∀ rt', Carried thread rt₀ rt' → Q () rt') :
    (Script.ask (.callVoid obj cls method args)).wp (silent thread) Q rt := by
  refine wp_silent (ends_bind ((h.ends_invoke_value hmethod hoperates).mono ?_))
  exact fun _ rt' hcarried => ends_pure fun _ => ⟨hcarried.1, hQ rt' hcarried⟩

end Values

end Methods

end Underway

end GridBridge.Managed
