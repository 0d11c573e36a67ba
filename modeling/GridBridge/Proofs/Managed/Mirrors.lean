import GridBridge.Managed.Answer
import GridBridge.Proofs.Managed.Dispatch
import GridBridge.Proofs.Managed.RefTable
import GridBridge.Proofs.Seam.Ledger

/-!
# The loopback runtime in a ledger

**`Mirrors`** relates a state of the loopback runtime to a ledger: the same live tokens, the same
exception pending on the thread and none on any other, the known classes where the ledger knows them,
and the phase that the calls have led to. The lemmas of this module say how the relation moves with
the parts of the runtime; `Proofs.Managed.Answer` puts them together call by call.
-/

namespace GridBridge.Managed

open Protocol Seam

/-! ## What is pending, thread by thread -/

namespace Runtime

/-- The entries of one thread are gone, and those of the others stay. -/
theorem lookup_filter_ne {α : Type} (entries : List (ThreadId × α)) (thread other : ThreadId) :
    (entries.filter (·.1 != thread)).lookup other =
      if other = thread then none else entries.lookup other := by
  induction entries with
  | nil => simp
  | cons entry rest ih =>
    obtain ⟨key, value⟩ := entry
    -- by whether the first entry is one of those that go
    by_cases hkey : key = thread
    · subst hkey
      rw [List.filter_cons_of_neg (by simp), ih]
      by_cases hother : other = key
      · rw [if_pos hother, if_pos hother]
      · have hne : (other == key) = false := by simpa using hother
        simp only [if_neg hother, List.lookup_cons, hne]
    · rw [List.filter_cons_of_pos (by simpa using hkey)]
      by_cases hother : other = key
      · subst hother
        simp [hkey]
      · have hne : (other == key) = false := by simpa using hother
        simp only [List.lookup_cons, hne]
        exact ih

/-- To clear an exception is about one thread. -/
theorem pending?_clear (rt : Runtime) (thread other : ThreadId) :
    (rt.clearPending thread).pending? other =
      if other = thread then none else rt.pending? other :=
  lookup_filter_ne rt.pending thread other

/-- So is raising one. -/
theorem pending?_raise (rt : Runtime) (thread other : ThreadId) (thrown : Thrown) :
    (rt.raise thread thrown).pending? other =
      if other = thread then some thrown else rt.pending? other := by
  show List.lookup other ((thread, thrown) :: rt.pending.filter (·.1 != thread)) = _
  by_cases hother : other = thread
  · rw [if_pos hother, hother, List.lookup_cons_self]
  · have hne : (other == thread) = false := by simpa using hother
    rw [if_neg hother, List.lookup_cons, hne]
    exact (lookup_filter_ne rt.pending thread other).trans (if_neg hother)

end Runtime

/-! ## Life cycle -/

namespace Runtime

/-- A launch is refused and changes nothing that matters here, or the idle runtime is running. -/
theorem launch_cases (rt : Runtime) (thread : ThreadId) (args : LaunchArgs) :
    (∃ code, (rt.launch thread args).1 = .error code ∧ rt.Calm (rt.launch thread args).2) ∨
      (rt.launch thread args).1 = .ok () ∧ rt.phase = .idle ∧
        (rt.launch thread args).2.refs = rt.refs ∧
        (rt.launch thread args).2.pending = rt.pending ∧
        (rt.launch thread args).2.faults.refuseAttach = rt.faults.refuseAttach ∧
        (rt.launch thread args).2.phase = .running := by
  rw [launch_eq]
  split
  · exact .inl ⟨_, rfl, Calm.refl rt⟩
  · rename_i hidle
    -- what is left to refuse an idle launcher: the arguments, and an armed code
    have hidle : rt.phase = .idle := not_not.mp hidle
    split
    · exact .inl ⟨_, rfl, Calm.refl rt⟩
    · split
      · exact .inl ⟨_, rfl, rfl, rfl, rfl, rfl⟩
      · unfold attachThread
        split <;> exact .inr ⟨rfl, hidle, rfl, rfl, rfl, rfl⟩

/-- Whether a runtime lets threads attach. -/
def admits (rt : Runtime) : Bool := decide (rt.phase = .running) && !rt.faults.refuseAttach

/-- A thread attaches exactly if it is admitted. -/
theorem isOk_attach (rt : Runtime) (thread : ThreadId) :
    Except.isOk (rt.attach thread).1 = rt.admits := by
  unfold attach admits
  split
  · rename_i hphase
    simp [hphase, Except.isOk, Except.toBool]
  · rename_i hphase
    cases hrefuse : rt.faults.refuseAttach <;>
      simp_all [Except.isOk, Except.toBool]

/-- To attach touches neither references nor exceptions. -/
theorem calm_attach (rt : Runtime) (thread : ThreadId) : rt.Calm (rt.attach thread).2 := by
  unfold attach
  split
  · exact Calm.refl rt
  · split
    · exact Calm.refl rt
    · unfold attachThread
      split <;> exact ⟨rfl, rfl, rfl, rfl⟩

/-- A runtime that is destroyed keeps its references. -/
theorem destroy_spec (rt : Runtime) :
    rt.destroy.refs = rt.refs ∧ rt.destroy.pending = rt.pending ∧
      rt.destroy.faults.refuseAttach = rt.faults.refuseAttach ∧ rt.destroy.phase = .destroyed := by
  unfold destroy
  split
  · rename_i hphase
    exact ⟨rfl, rfl, rfl, hphase⟩
  · exact ⟨rfl, rfl, rfl, rfl⟩

end Runtime

/-! ## References in a ledger -/

namespace RefTable

variable {t t' : RefTable} {r : Ref} {name : String} {object : Object} {kind : RefKind} {ℓ : Ledger}

/-- The reference was handed out, and as long as it is live it leads to the class. -/
structure Names (t : RefTable) (r : Ref) (name : String) : Prop where
  nonNull : r.isNull = false
  below : r.bits.toNat < t.next
  leads : ∀ e ∈ t.live, e.token = r → e.object = .cls name

/-- The ledger lists the live references of the table, and what it says of classes is right. -/
structure Listed (t : RefTable) (ℓ : Ledger) : Prop where
  sound : t.Sound
  locals : t.tokens .localRef = ℓ.locals
  globals : t.tokens .globalRef = ℓ.globals
  known : ∀ c ∈ ℓ.classes, t.Names c.1 c.2

/-- A class is marked by its name. -/
theorem names_iff : t.Names r name ↔ t.Marks r (some (.cls name)) :=
  ⟨fun ⟨hnonNull, hbelow, hleads⟩ => ⟨hnonNull, hbelow, hleads⟩,
    fun ⟨hnonNull, hbelow, hleads⟩ => ⟨hnonNull, hbelow, hleads⟩⟩

/-- What named a class still does. -/
theorem Names.since (h : t.Names r name) (hsince : t.Since t') : t'.Names r name :=
  names_iff.mpr ((names_iff.mp h).since hsince)

namespace Listed

/-- A live reference that the ledger holds leads somewhere, and to a class where one is known. -/
theorem get?_of_holds (h : t.Listed ℓ) (hr : ℓ.Holds r) (hnull : r.isNull = false) :
    ∃ object, t.get? r = some object ∧ ∀ name, t.Names r name → object = .cls name := by
  -- what is held and is not null has a live entry of one of the two kinds
  have hlive : ∃ kind, r ∈ t.tokens kind := by
    rcases hr with rfl | hr | hr
    · exact absurd hnull nofun
    · exact ⟨.localRef, h.locals ▸ hr⟩
    · exact ⟨.globalRef, h.globals ▸ hr⟩
  obtain ⟨kind, hr⟩ := hlive
  obtain ⟨e, he, _, rfl⟩ := mem_tokens.mp hr
  exact ⟨e.object, h.sound.get?_eq he, fun name hnames => hnames.leads e he rfl⟩

/-- A reference that is made is one more in the ledger. The ledger may learn what is right. -/
theorem insert (h : t.Listed ℓ) (hroom : t.next < 2 ^ 64) (object : Object) (kind : RefKind)
    {ℓ' : Ledger}
    (hlocals : ℓ'.locals = ℓ.locals + if kind = .localRef then held t.token else 0)
    (hglobals : ℓ'.globals = ℓ.globals + if kind = .globalRef then held t.token else 0)
    (hknown : ∀ c ∈ ℓ'.classes, c ∈ ℓ.classes ∨ c.1 = t.token ∧ object = .cls c.2) :
    (t.insert object kind).2.Listed ℓ' where
  sound := h.sound.insert hroom object kind
  locals := by
    rw [tokens_insert, h.locals, hlocals, held_of_not_null (h.sound.token_not_null hroom)]
  globals := by
    rw [tokens_insert, h.globals, hglobals, held_of_not_null (h.sound.token_not_null hroom)]
  known := by
    rintro ⟨r, name⟩ hc
    rcases hknown _ hc with hc | ⟨hr, hobject⟩
    -- classes that were known stay known, and the new one is that of the reference
    · exact (h.known _ hc).since (.made .refl hroom object kind)
    · obtain rfl : r = t.token := hr
      obtain rfl : object = .cls name := hobject
      exact names_iff.mpr (h.sound.marks_token hroom (.cls name) kind)

/-- A reference that the ledger holds can be given back, and is one less in the ledger. -/
theorem remove (h : t.Listed ℓ) (kind : RefKind)
    (hr : held r ≤ if kind = .localRef then ℓ.locals else ℓ.globals) :
    ∃ t', t.remove r kind = .ok t' ∧ t'.Listed { ℓ with
      locals := ℓ.locals - if kind = .localRef then held r else 0
      globals := ℓ.globals - if kind = .globalRef then held r else 0 } := by
  cases hnull : r.isNull with
  | true =>
    obtain rfl := Ref.isNull_iff.mp hnull
    refine ⟨t, remove_null t kind, h.sound, ?_, ?_, h.known⟩
    · simpa using h.locals
    · simpa using h.globals
  | false =>
    rw [held_of_not_null hnull] at hr ⊢
    -- what is not null and held is one of the live tokens of its kind
    have hmem : r ∈ t.tokens kind := by
      cases kind with
      | localRef => exact h.locals ▸ Multiset.singleton_le.mp hr
      | globalRef => exact h.globals ▸ Multiset.singleton_le.mp hr
    refine ⟨_, remove_eq h.sound hmem, h.sound.erase r, ?_, ?_, ?_⟩
    · rw [tokens_remove h.sound hmem, h.locals]
    · rw [tokens_remove h.sound hmem, h.globals]
    · exact fun c hc => (h.known c hc).since (.returned .refl r)

end Listed

end RefTable

/-! ## The relation -/

/-- The phase that the calls in a ledger lead to. -/
def phaseAfter (origin : Phase) (ℓ : Ledger) : Phase :=
  if 0 < ℓ.destroys then .destroyed else if 0 < ℓ.launches then .running else origin

/-- The ledger is right about the runtime, which stood at `origin` when it was begun. Only the thread
that it is kept for can have an exception pending. -/
structure Mirrors (origin : Phase) (thread : ThreadId) (rt : Runtime) (ℓ : Ledger) : Prop where
  listed : rt.refs.Listed ℓ
  pending : (rt.pending? thread).isSome = ℓ.pending
  others : ∀ other, other ≠ thread → rt.pending? other = none
  phase : rt.phase = phaseAfter origin ℓ
  admits : ℓ.admits = (decide (origin = .running) && !rt.faults.refuseAttach)
  vacant : ℓ.vacant = decide (origin = .idle)

namespace Mirrors

variable {origin : Phase} {thread : ThreadId} {rt rt' : Runtime} {ℓ : Ledger}

/-- Before a launch or a destruction the runtime stands where it stood. -/
theorem phase_eq (h : Mirrors origin thread rt ℓ) (hdestroys : ℓ.destroys = 0)
    (hlaunches : ℓ.launches = 0) : rt.phase = origin := by
  rw [h.phase]
  simp [phaseAfter, hdestroys, hlaunches]

/-- The runtime goes on to another phase, and the ledger says so. -/
theorem turn (h : Mirrors origin thread rt ℓ) {launches destroys : Nat} (hrefs : rt'.refs = rt.refs)
    (hpending : rt'.pending = rt.pending)
    (hrefuse : rt'.faults.refuseAttach = rt.faults.refuseAttach)
    (hphase : rt'.phase = phaseAfter origin { ℓ with launches, destroys }) :
    Mirrors origin thread rt' { ℓ with launches, destroys } where
  listed := hrefs ▸ { h.listed with }
  pending := by
    rw [Runtime.pending?, hpending]
    exact h.pending
  others := by
    intro other hother
    rw [Runtime.pending?, hpending]
    exact h.others other hother
  phase := hphase
  admits := hrefuse ▸ h.admits
  vacant := h.vacant

/-- What managed code leaves alone is all that a ledger is about. -/
theorem calm (h : Mirrors origin thread rt ℓ) (hcalm : rt.Calm rt') : Mirrors origin thread rt' ℓ :=
  h.turn hcalm.refs hcalm.pending hcalm.refuseAttach (hcalm.phase.trans h.phase)

/-- What is raised is pending on this thread. -/
theorem raise (h : Mirrors origin thread rt ℓ) (thrown : Thrown) :
    Mirrors origin thread (rt.raise thread thrown) { ℓ with pending := true } where
  listed := { h.listed with }
  pending := by rw [Runtime.pending?_raise, if_pos rfl]; rfl
  others := by
    intro other hother
    rw [Runtime.pending?_raise, if_neg hother]
    exact h.others other hother
  phase := h.phase
  admits := h.admits
  vacant := h.vacant

/-- What is cleared is no longer pending. -/
theorem clear (h : Mirrors origin thread rt ℓ) :
    Mirrors origin thread (rt.clearPending thread) { ℓ with pending := false } where
  listed := { h.listed with }
  pending := by rw [Runtime.pending?_clear, if_pos rfl]; rfl
  others := by
    intro other hother
    rw [Runtime.pending?_clear, if_neg hother]
    exact h.others other hother
  phase := h.phase
  admits := h.admits
  vacant := h.vacant

/-- What a ledger says of native methods does not matter. -/
theorem noted (h : Mirrors origin thread rt ℓ) (registered : List (Ref × List NativeMethod)) :
    Mirrors origin thread rt { ℓ with registered } :=
  ⟨{ h.listed with }, h.pending, h.others, h.phase, h.admits, h.vacant⟩

/-- Another reference table, as long as the ledger lists it. -/
theorem withRefs (h : Mirrors origin thread rt ℓ) {refs : RefTable} {locals globals : Multiset Ref}
    {classes : List (Ref × String)} (hlisted : refs.Listed { ℓ with locals, globals, classes }) :
    Mirrors origin thread { rt with refs } { ℓ with locals, globals, classes } :=
  ⟨hlisted, h.pending, h.others, h.phase, h.admits, h.vacant⟩

/-- A local reference is made, and the ledger holds it. -/
theorem makeLocal (h : Mirrors origin thread rt ℓ) (hroom : rt.refs.next + 1 ≤ 2 ^ 64)
    (object : Object) (classes : List (Ref × String))
    (hknown : ∀ c ∈ classes, c ∈ ℓ.classes ∨ c.1 = rt.refs.token ∧ object = .cls c.2) :
    Mirrors origin thread { rt with refs := (rt.refs.insert object .localRef).2 }
      { ℓ with locals := ℓ.locals + held rt.refs.token, classes } :=
  h.withRefs (h.listed.insert hroom object .localRef rfl (add_zero _).symm hknown)

/-- A global reference is made, and the ledger holds it. -/
theorem makeGlobal (h : Mirrors origin thread rt ℓ) (hroom : rt.refs.next + 1 ≤ 2 ^ 64)
    (object : Object) (classes : List (Ref × String))
    (hknown : ∀ c ∈ classes, c ∈ ℓ.classes ∨ c.1 = rt.refs.token ∧ object = .cls c.2) :
    Mirrors origin thread { rt with refs := (rt.refs.insert object .globalRef).2 }
      { ℓ with globals := ℓ.globals + held rt.refs.token, classes } :=
  h.withRefs (h.listed.insert hroom object .globalRef (add_zero _).symm rfl hknown)

/-- A reference that is held is given back, and the ledger holds it no longer. -/
theorem giveBack (h : Mirrors origin thread rt ℓ) {r : Ref} (kind : RefKind)
    (hr : held r ≤ if kind = .localRef then ℓ.locals else ℓ.globals) :
    ∃ refs, rt.refs.remove r kind = .ok refs ∧ Mirrors origin thread { rt with refs } { ℓ with
      locals := ℓ.locals - if kind = .localRef then held r else 0
      globals := ℓ.globals - if kind = .globalRef then held r else 0 } := by
  obtain ⟨refs, hremove, hlisted⟩ := h.listed.remove kind hr
  exact ⟨refs, hremove, h.withRefs hlisted⟩

end Mirrors

end GridBridge.Managed
