import GridBridge.Proofs.Managed.Answer

/-!
# Desks: what the loopback runtime holds and answers

A **`Desk`** is what one would have to know of a started loopback runtime to foretell its answers: the
grid, the tasks, and the objects behind references. **`Shows`** says that a runtime without injected
faults holds what a desk says, and **`loopback`** is the runtime itself as a contract, so that scripts
can be taken apart call by call. The `wp_…` lemmas are the rules, one for each call that operations on
a started runtime make. They are about answers that do come: that they come is the other contract's
affair.
-/

namespace GridBridge.Managed

open Protocol Seam

/-! ## Where references lead -/

namespace RefTable

variable {t : RefTable} {r other : Ref} {kind : RefKind} {object : Object} {found : Option Object}

/-- A live reference of this kind leads to the object; the null reference leads to none. -/
def Leads (t : RefTable) (kind : RefKind) (r : Ref) : Option Object → Prop
  | some object => t.find? r = some ⟨r, kind, object⟩
  | none => r = .null

/-- A reference that leads to an object is not null. -/
theorem Leads.not_null (h : t.Leads kind r (some object)) (hsound : t.Sound) : r.isNull = false := by
  obtain ⟨hlive, htoken⟩ := mem_of_find? h
  exact hsound.not_null (mem_tokens.mpr ⟨_, hlive, rfl, htoken⟩)

/-- A reference that was just made leads to what it was made for. -/
theorem leads_token (t : RefTable) (object : Object) (kind : RefKind) :
    (t.insert object kind).2.Leads kind t.token (some object) := by
  simp [Leads, RefTable.insert, find?]

/-- The next token is not one that leads anywhere yet. -/
theorem Leads.ne_token (h : t.Leads kind r found) (hsound : t.Sound) (hroom : t.next < 2 ^ 64) :
    r ≠ t.token := by
  intro hsame
  cases found with
  | none =>
    have hnonnull := hsound.token_not_null hroom
    rw [← hsame, h] at hnonnull
    exact absurd hnonnull (by decide)
  | some object =>
    obtain ⟨hlive, htoken⟩ := mem_of_find? h
    exact hsound.token_fresh hroom _ hlive (htoken.trans hsame)

/-- A reference that is made does not get in the way of the others. -/
theorem Leads.insert (h : t.Leads kind r found) (hsound : t.Sound) (hroom : t.next < 2 ^ 64)
    (object : Object) (made : RefKind) : (t.insert object made).2.Leads kind r found := by
  cases found with
  | none => exact h
  | some o =>
    have hne : (t.token == r) = false := by simpa using (h.ne_token hsound hroom).symm
    show List.find? _ (_ :: t.live) = _
    rw [List.find?_cons, hne]
    exact h

/-- Giving another reference back does not matter. -/
theorem Leads.erase (h : t.Leads kind r found) (hsound : t.Sound) (hne : r = other → r = .null) :
    Leads { t with live := t.live.filter (·.token != other) } kind r found := by
  cases found with
  | none => exact h
  | some object =>
    -- a reference that leads to an object is not null, so it is another one
    have hkept : r ≠ other := by
      intro hsame
      have hnonnull := h.not_null hsound
      rw [hne hsame] at hnonnull
      exact absurd hnonnull (by decide)
    exact (t.find?_erase other r).trans ((if_neg hkept).trans h)

/-- A live reference that leads to an object is given back as what it is. -/
theorem Leads.remove (h : t.Leads kind r (some object)) (hsound : t.Sound) :
    t.remove r kind = .ok { t with live := t.live.filter (·.token != r) } := by
  obtain ⟨hlive, htoken⟩ := mem_of_find? h
  exact remove_eq hsound (mem_tokens.mpr ⟨_, hlive, rfl, htoken⟩)

end RefTable

/-! ## Desks -/

/-- What a started runtime holds. -/
structure Desk where
  grid : Grid
  tasks : List Task
  /-- Durable references, each with the object that it leads to. -/
  owned : List (Ref × Object)
  /-- Local references, newest first. The null reference leads to nothing. -/
  locals : List (Ref × Option Object) := []
  /-- An exception is pending on the thread. -/
  raised : Bool := false

/-- The runtime is up, no fault is injected, and it holds what is on the desk. -/
structure Shows (files : Files.FileSystem) (thread : ThreadId) (desk : Desk) (rt : Runtime) : Prop where
  sound : rt.refs.Sound
  phase : rt.phase = .running
  faults : rt.faults = {}
  entry : rt.entry = some .completion
  files : rt.files = files
  grid : rt.grid = desk.grid
  tasks : rt.tasks = desk.tasks
  outbox : rt.outbox = []
  pending : (rt.pending? thread).isSome = desk.raised
  owned : ∀ o ∈ desk.owned, rt.refs.Leads .globalRef o.1 (some o.2)
  locals : ∀ o ∈ desk.locals, rt.refs.Leads .localRef o.1 o.2
  distinct : desk.locals.Pairwise fun a b => a.1 = b.1 → a.1 = .null

/-- What an argument means to one who knows the desk. -/
def Desk.Means (desk : Desk) : Arg → ArgValue → Prop
  | .int value, meant => meant = .int value
  | .long value, meant => meant = .long value
  | .object r, meant => ∃ found, meant = .object found ∧ (r = .null ∧ found = none ∨
      (r, found) ∈ desk.locals ∨ ∃ object, found = some object ∧ (r, object) ∈ desk.owned)

namespace Desk

variable {desk : Desk} {r : Ref} {object : Object} {found : Option Object}

/-- A local reference on the desk means what the desk says it leads to. -/
theorem means_local (hmem : (r, found) ∈ desk.locals) : desk.Means (.object r) (.object found) :=
  ⟨found, rfl, .inr (.inl hmem)⟩

/-- So does a durable one. -/
theorem means_owned (hmem : (r, object) ∈ desk.owned) :
    desk.Means (.object r) (.object (some object)) :=
  ⟨some object, rfl, .inr (.inr ⟨object, rfl, hmem⟩)⟩

/-- The null reference means nothing. -/
theorem means_null (desk : Desk) : desk.Means (.object .null) (.object none) :=
  ⟨none, rfl, .inl ⟨rfl, rfl⟩⟩

end Desk

/-- The loopback runtime as a contract. It takes any call, and its answers are those that it gives on
the thread before its numbers come round. Completions are taken off it at once. -/
def loopback (thread : ThreadId) : Contract Runtime where
  takes _ _ := True
  answers rt request reply rt' := rt'.refs.next ≤ 2 ^ 64 ∧
    ∃ rt₁, (answer thread request).run.run rt = (.ok reply, rt₁) ∧ rt' = { rt₁ with outbox := [] }

variable {files : Files.FileSystem} {thread : ThreadId} {desk desk₁ : Desk} {rt rt₁ : Runtime}

/-- An answer of the runtime, its completions taken off, is an answer of the contract. -/
theorem wp_answer {request : Call} {Q : request.Reply → Runtime → Prop}
    (h : Ends (answer thread request)
      (fun reply rt₁ => rt₁.refs.next ≤ 2 ^ 64 → Q reply { rt₁ with outbox := [] }) rt) :
    (Script.ask request).wp (loopback thread) Q rt := by
  refine Script.wp_ask.mpr ⟨trivial, ?_⟩
  rintro reply _ ⟨hroom, rt₁, hrun, rfl⟩
  exact h reply rt₁ hrun hroom

/-- Whatever a script asks, it ends somehow. -/
theorem wp_any {α : Type} (x : Script α) : x.wp (loopback thread) (fun _ _ => True) rt := by
  induction x generalizing rt with
  | done value => exact trivial
  | call request next ih => exact ⟨trivial, fun reply rt' _ => ih reply⟩
  | report fault next ih => exact ih

/-! ## What changes a desk -/

namespace Shows

/-- Completions are taken off the runtime. -/
theorem received (h : Shows files thread desk rt) :
    Shows files thread desk { rt with outbox := [] } :=
  { h with outbox := rfl }

/-- To attach a thread puts nothing on a desk. -/
theorem attached (h : Shows files thread desk rt) :
    Shows files thread desk (rt.attachThread thread) := by
  unfold Runtime.attachThread
  split
  · exact h
  · exact { h with }

/-- An exception that is raised is pending on the desk. -/
theorem raise (h : Shows files thread desk rt) (thrown : Thrown) :
    Shows files thread { desk with raised := true } (rt.raise thread thrown) :=
  { h with pending := by rw [Runtime.pending?_raise, if_pos rfl]; rfl }

/-- One that is cleared is not. -/
theorem clear (h : Shows files thread desk rt) :
    Shows files thread { desk with raised := false } (rt.clearPending thread) :=
  { h with pending := by rw [Runtime.pending?_clear, if_pos rfl]; rfl }

/-- A local reference more, or the null reference in place of one. -/
theorem made (h : Shows files thread desk rt) (hroom : rt.refs.next < 2 ^ 64) (object : Object) :
    Shows files thread { desk with locals := (rt.refs.token, some object) :: desk.locals }
      { rt with refs := (rt.refs.insert object .localRef).2 } :=
  { h with
    sound := h.sound.insert hroom object .localRef
    owned := fun o hmem => (h.owned o hmem).insert h.sound hroom object .localRef
    locals := by
      intro o hmem
      cases hmem with
      | head => exact RefTable.leads_token rt.refs object .localRef
      | tail _ hmem => exact (h.locals o hmem).insert h.sound hroom object .localRef
    -- the token is none of the references that are on the desk already
    distinct := by
      refine List.pairwise_cons.mpr ⟨?_, h.distinct⟩
      intro o hmem hsame
      exact absurd hsame.symm ((h.locals o hmem).ne_token h.sound hroom) }

/-- The null reference is put on the desk as leading to nothing. -/
theorem madeNone (h : Shows files thread desk rt) :
    Shows files thread { desk with locals := (.null, none) :: desk.locals } rt :=
  { h with
    locals := by
      intro o hmem
      cases hmem with
      | head => exact rfl
      | tail _ hmem => exact h.locals o hmem
    distinct := List.pairwise_cons.mpr ⟨fun _ _ _ => rfl, h.distinct⟩ }

/-- A durable reference more. -/
theorem promoted (h : Shows files thread desk rt) (hroom : rt.refs.next < 2 ^ 64) (object : Object) :
    Shows files thread { desk with owned := (rt.refs.token, object) :: desk.owned }
      { rt with refs := (rt.refs.insert object .globalRef).2 } :=
  { h with
    sound := h.sound.insert hroom object .globalRef
    owned := by
      intro o hmem
      cases hmem with
      | head => exact RefTable.leads_token rt.refs object .globalRef
      | tail _ hmem => exact (h.owned o hmem).insert h.sound hroom object .globalRef
    locals := fun o hmem => (h.locals o hmem).insert h.sound hroom object .globalRef }

/-- With nothing pending on either of them, one thread is as good as another. -/
theorem elsewhere (h : Shows files thread desk rt) (hclear : desk.raised = false) {other : ThreadId}
    (hnothing : rt.pending? other = none) : Shows files other desk rt :=
  { h with pending := by rw [hnothing, hclear]; rfl }

/-- Local references that nobody asks about any more. -/
theorem forget (h : Shows files thread desk rt) {locals : List (Ref × Option Object)}
    (hfewer : locals.Sublist desk.locals) : Shows files thread { desk with locals } rt :=
  { h with
    locals := fun o hmem => h.locals o (hfewer.subset hmem)
    distinct := h.distinct.sublist hfewer }

end Shows

/-! ## Resolving -/

/-- What the reference was found to lead to. -/
def Refers (rt : Runtime) (r : Ref) (found : Option Object) : Prop :=
  r.isNull = true ∧ found = none ∨ r.isNull = false ∧ found.isSome = true ∧ rt.refs.get? r = found

/-- What an argument was resolved to. -/
def Resolved (rt : Runtime) : Arg → ArgValue → Prop
  | .int value, meant => meant = .int value
  | .long value, meant => meant = .long value
  | .object r, meant => ∃ found, meant = .object found ∧ Refers rt r found

/-- What a reference was found to lead to is what the table says. -/
theorem Refers.eq_of_leads {r : Ref} {kind : RefKind} {found found' : Option Object}
    (h : Refers rt r found) (hleads : rt.refs.Leads kind r found') (hsound : rt.refs.Sound) :
    found = found' := by
  cases found' with
  | none =>
    obtain rfl : r = .null := hleads
    obtain ⟨_, hnone⟩ | ⟨hnonnull, _⟩ := h
    · exact hnone
    · exact absurd hnonnull (by decide)
  | some object =>
    have hnonnull := hleads.not_null hsound
    obtain ⟨hnull, _⟩ | ⟨_, _, hget⟩ := h
    · rw [hnonnull] at hnull
      exact absurd hnull (by decide)
    · rw [← hget, RefTable.get?, show rt.refs.find? r = _ from hleads]
      rfl

/-- What is on the desk is what is found. -/
theorem Shows.resolved_eq (h : Shows files thread desk rt) {arg : Arg} {meant value : ArgValue}
    (hmeans : desk.Means arg meant) (hresolved : Resolved rt arg value) : value = meant := by
  cases arg with
  | int _ => exact hresolved.trans hmeans.symm
  | long _ => exact hresolved.trans hmeans.symm
  | object r =>
    obtain ⟨found, rfl, hrefers⟩ := hresolved
    obtain ⟨found', rfl, ⟨rfl, rfl⟩ | hmem | ⟨object, rfl, hmem⟩⟩ := hmeans
    -- the null reference, a local one, a durable one
    · have hnull : rt.refs.Leads .localRef .null none := rfl
      rw [hrefers.eq_of_leads hnull h.sound]
    · rw [hrefers.eq_of_leads (h.locals _ hmem) h.sound]
    · rw [hrefers.eq_of_leads (h.owned _ hmem) h.sound]

/-- The same of all arguments, by induction on what they mean. -/
theorem Shows.resolved_args_eq (h : Shows files thread desk rt) {args : List Arg}
    {meant values : List ArgValue} (hmeans : List.Forall₂ desk.Means args meant)
    (hresolved : List.Forall₂ (Resolved rt) args values) : values = meant := by
  induction hmeans generalizing values with
  | nil =>
    cases hresolved
    rfl
  | cons hfirst _ ih =>
    cases hresolved with
    | cons hfirst' hrest' => rw [h.resolved_eq hfirst hfirst', ih hrest']

namespace Answering

/-- Where a call has to find nothing pending it changes nothing. -/
theorem ends_requireClear {activity : String} :
    Ends (requireClear thread activity) (fun _ rt' => rt' = rt) rt := by
  refine ends_bind (ends_get ?_)
  split
  · exact ends_throw
  · exact ends_pure rfl

/-- What a reference is resolved to is what it leads to, and nothing changes by the look. -/
theorem ends_resolve {r : Ref} :
    Ends (resolve r) (fun found rt' => rt' = rt ∧ Refers rt r found) rt := by
  unfold resolve
  cases hnull : r.isNull with
  | true => exact ends_pure ⟨rfl, .inl ⟨hnull, rfl⟩⟩
  | false =>
    refine ends_bind (ends_get ?_)
    split
    · rename_i object hfound
      exact ends_pure ⟨rfl, .inr ⟨hnull, rfl, hfound⟩⟩
    · exact ends_throw

/-- The arguments are resolved one after the other, none of them with an effect. -/
theorem ends_resolveArgs {args : List Arg} :
    Ends (args.mapM resolveArg)
      (fun values rt' => rt' = rt ∧ List.Forall₂ (Resolved rt) args values) rt := by
  -- along the arguments, none of which changes the runtime when it is read
  induction args with
  | nil => exact ends_pure ⟨rfl, .nil⟩
  | cons arg rest ih =>
    rw [List.mapM_cons]
    have hfirst : Ends (resolveArg arg) (fun value rt' => rt' = rt ∧ Resolved rt arg value) rt := by
      cases arg with
      | int value => exact ends_pure ⟨rfl, rfl⟩
      | long value => exact ends_pure ⟨rfl, rfl⟩
      | object r =>
        refine ends_bind (ends_resolve.mono ?_)
        intro found _ ⟨hsame, hrefers⟩
        exact ends_pure ⟨hsame, found, rfl, hrefers⟩
    refine ends_bind (hfirst.mono ?_)
    intro value _ ⟨hsame, hresolved⟩
    subst hsame
    refine ends_bind (ih.mono ?_)
    intro values _ ⟨hsame, hresolved'⟩
    exact ends_pure ⟨hsame, .cons hresolved hresolved'⟩

/-- A class that is given is checked against the method, and nothing changes by that. -/
theorem ends_checkClass {entry : MethodEntry} {cls : Option Ref} :
    Ends (checkClass entry cls) (fun _ rt' => rt' = rt) rt := by
  cases cls with
  | none => exact ends_pure rfl
  | some c =>
    refine ends_bind (ends_bind (ends_resolve.mono ?_))
    intro found _ ⟨hsame, _⟩
    subst hsame
    split
    · refine ends_pure ?_
      split
      · exact ends_throw
      · exact ends_pure rfl
    · exact ends_bind (ends_get ends_throw)

/-- A method that is run: its outcome is known. -/
theorem ends_runMethod {behaviour : Behaviour} {self : Option Object} {values : List ArgValue}
    {outcome : Except Stop CallValue} {Q : CallValue → Runtime → Prop}
    (hrun : (Code.dispatch behaviour self values).run.run rt = (outcome, rt₁))
    (hvalue : ∀ value, outcome = .ok value → Q value rt₁)
    (hthrown : ∀ thrown, outcome = .error (.thrown thrown) → Q .void (rt₁.raise thread thrown)) :
    Ends (runMethod thread behaviour self values) Q rt := by
  refine ends_bind (ends_get ?_)
  rw [hrun]
  refine ends_bind (ends_set ?_)
  cases outcome with
  | ok value => exact ends_pure (hvalue value rfl)
  | error stop =>
    cases stop with
    | thrown thrown => exact ends_bind (ends_modify (ends_pure (hthrown thrown rfl)))
    | fatal cause => exact ends_throw

/-- A call of a method comes down to running it on what receiver and arguments lead to. -/
theorem ends_invoke {receiver cls : Option Ref} {method : MethodId} {args : List Arg}
    {entry : MethodEntry} {Q : CallValue → Runtime → Prop} (hmethod : methodEntry? method = some entry)
    (hrun : ∀ self values, (receiver = none → self = none) →
      (∀ r, receiver = some r → Refers rt r self) → List.Forall₂ (Resolved rt) args values →
      Ends (runMethod thread entry.behaviour self values) Q rt) :
    Ends (invoke thread receiver cls method args) Q rt := by
  refine ends_bind (ends_requireClear.mono ?_)
  intro _ _ hsame
  rw [hsame]
  rw [hmethod]
  dsimp only
  split
  · exact ends_throw
  · refine ends_bind (ends_checkClass.mono ?_)
    intro _ _ hsame
    rw [hsame]
    -- the arguments, whatever the receiver is
    have hrest : ∀ self, (receiver = none → self = none) →
        (∀ r, receiver = some r → Refers rt r self) →
        Ends (args.mapM resolveArg >>= runMethod thread entry.behaviour self) Q rt := by
      intro self hnone hsome
      refine ends_bind (ends_resolveArgs.mono ?_)
      intro values _ ⟨hsame, hresolved⟩
      rw [hsame]
      exact hrun self values hnone hsome hresolved
    cases receiver with
    | none => exact ends_bind (ends_pure (hrest none (fun _ => rfl) nofun))
    | some r =>
      refine ends_bind (ends_resolve.mono ?_)
      intro self _ ⟨hsame, hrefers⟩
      rw [hsame]
      exact hrest self nofun (by rintro _ ⟨⟩; exact hrefers)

end Answering

open Answering

/-! ## Calling methods -/

/-- The object that a method gives. -/
def objectOf : Except Stop CallValue → Option Object
  | .ok (.object found) => found
  | _ => none

/-- Whether a method throws. -/
def raises : Except Stop CallValue → Bool
  | .error (.thrown _) => true
  | _ => false

/-- On a runtime that shows a desk, the method ends so and leaves another desk. -/
def Does (files : Files.FileSystem) (thread : ThreadId) (desk : Desk) (behaviour : Behaviour)
    (self : Option Object) (values : List ArgValue) (outcome : Except Stop CallValue)
    (desk₁ : Desk) : Prop :=
  ∀ rt, Shows files thread desk rt → ∃ rt₁,
    (Code.dispatch behaviour self values).run.run rt = (outcome, rt₁) ∧ Shows files thread desk₁ rt₁

namespace Answering

/-- A method that is called on what the desk says it is called on. -/
theorem ends_invoke_on {receiver cls : Option Ref} {method : MethodId} {args : List Arg}
    {entry : MethodEntry} {self : Option Object} {values : List ArgValue}
    {outcome : Except Stop CallValue} {Q : CallValue → Runtime → Prop}
    (h : Shows files thread desk rt) (hmethod : methodEntry? method = some entry)
    (hnone : receiver = none → self = none)
    (hself : ∀ r, receiver = some r → desk.Means (.object r) (.object self))
    (hargs : List.Forall₂ desk.Means args values)
    (hdoes : Does files thread desk entry.behaviour self values outcome desk₁)
    (hvalue : ∀ value rt₁, outcome = .ok value → Shows files thread desk₁ rt₁ → Q value rt₁)
    (hthrown : ∀ rt₁, raises outcome = true →
      Shows files thread { desk₁ with raised := true } rt₁ → Q .void rt₁) :
    Ends (invoke thread receiver cls method args) Q rt := by
  refine ends_invoke hmethod ?_
  intro self' values' hnone' hself' hargs'
  -- what was resolved is what the desk says
  have hsameSelf : self' = self := by
    cases receiver with
    | none => exact (hnone' rfl).trans (hnone rfl).symm
    | some r =>
      have hresolved : Resolved rt (.object r) (.object self') := ⟨self', rfl, hself' r rfl⟩
      exact ArgValue.object.inj (h.resolved_eq (hself r rfl) hresolved)
  have hsameArgs := h.resolved_args_eq hargs hargs'
  obtain ⟨rt₁, hrun, hafter⟩ := hdoes rt h
  rw [hsameSelf, hsameArgs]
  refine ends_runMethod hrun ?_ ?_
  · exact fun value hended => hvalue value rt₁ hended hafter
  · intro thrown hended
    exact hthrown _ (by rw [hended]; rfl) (hafter.raise thrown)

/-- A value that is an object is handed out as a local reference, and any other as the null reference.
-/
theorem ends_refOf (h : Shows files thread desk rt) (value : CallValue) :
    Ends (refOf value) (fun r rt' => rt'.refs.next ≤ 2 ^ 64 →
      Shows files thread { desk with locals := (r, objectOf (.ok value)) :: desk.locals } rt') rt := by
  cases value with
  | object found =>
    cases found with
    | none => exact ends_pure fun _ => h.madeNone
    | some object =>
      refine ends_bind (ends_get (ends_bind (ends_set (ends_pure ?_))))
      exact fun hroom => h.made hroom object
  | _ => exact ends_pure fun _ => h.madeNone

/-- What a method gives is handed out as a local reference. -/
theorem ends_refOf_invoke (receiver : Option Ref) {method : MethodId} {args : List Arg}
    {entry : MethodEntry} {self : Option Object} {values : List ArgValue}
    {outcome : Except Stop CallValue} (h : Shows files thread desk rt)
    (hmethod : methodEntry? method = some entry) (hnone : receiver = none → self = none)
    (hself : ∀ r, receiver = some r → desk.Means (.object r) (.object self))
    (hargs : List.Forall₂ desk.Means args values)
    (hdoes : Does files thread desk entry.behaviour self values outcome desk₁)
    (hclear : desk₁.raised = false) :
    Ends (do refOf (← invoke thread receiver none method args)) (fun r rt' =>
      rt'.refs.next ≤ 2 ^ 64 → Shows files thread { desk₁ with
        locals := (r, objectOf outcome) :: desk₁.locals, raised := raises outcome } rt') rt := by
  refine ends_bind (ends_invoke_on h hmethod hnone hself hargs hdoes ?_ ?_)
  · rintro value rt₁ rfl hafter
    rw [show raises (.ok value) = desk₁.raised from hclear.symm]
    exact ends_refOf hafter value
  · intro rt₁ hthrown hafter
    -- nothing but an exception raises, and then the null reference is handed out
    obtain ⟨t, rfl⟩ : ∃ t, outcome = .error (.thrown t) := by
      unfold raises at hthrown
      split at hthrown
      · exact ⟨_, rfl⟩
      · exact absurd hthrown (by decide)
    exact ends_refOf hafter .void

end Answering

/-! ## Rules -/

section Rules

variable (h : Shows files thread desk rt)
include h

/-- A runtime that is up and refuses no thread takes this one. -/
theorem wp_attach {Q : Except Status Unit → Runtime → Prop}
    (hQ : ∀ rt', Shows files thread desk rt' → Q (.ok ()) rt') :
    (Script.ask .attach).wp (loopback thread) Q rt := by
  refine wp_answer (ends_bind (ends_get (ends_bind (ends_set (ends_pure fun _ => ?_)))))
  show Q (rt.attach thread).1 { (rt.attach thread).2 with outbox := [] }
  have hattach : rt.attach thread = (.ok (), rt.attachThread thread) := by
    unfold Runtime.attach
    rw [if_neg (by simp [h.phase]), if_neg (by simp [h.faults])]
  rw [hattach]
  exact hQ _ h.attached.received

/-- A string that is made is the newest local reference. -/
theorem wp_newString {text : String} {Q : Ref → Runtime → Prop}
    (hQ : ∀ r rt', r.isNull = false →
      Shows files thread { desk with locals := (r, some (.str text)) :: desk.locals } rt' → Q r rt') :
    (Script.ask (.newString text)).wp (loopback thread) Q rt := by
  refine wp_answer (ends_bind (ends_requireClear.mono ?_))
  intro _ _ hsame
  rw [hsame]
  refine ends_bind (ends_get (ends_bind (ends_set (ends_pure ?_))))
  intro hroom
  exact hQ _ _ (h.sound.token_not_null hroom) (h.made hroom (.str text)).received

/-- A method of a class leaves what it gives as the newest local reference, and says whether it threw.
-/
theorem wp_callStatic {cls : Ref} {method : MethodId} {args : List Arg} {entry : MethodEntry}
    {values : List ArgValue} {outcome : Except Stop CallValue} {Q : Ref → Runtime → Prop}
    (hmethod : methodEntry? method = some entry) (hargs : List.Forall₂ desk.Means args values)
    (hdoes : Does files thread desk entry.behaviour none values outcome desk₁)
    (hclear : desk₁.raised = false)
    (hQ : ∀ r rt', Shows files thread { desk₁ with
      locals := (r, objectOf outcome) :: desk₁.locals, raised := raises outcome } rt' → Q r rt') :
    (Script.ask (.callStatic cls method args)).wp (loopback thread) Q rt := by
  refine wp_answer
    ((ends_refOf_invoke none h hmethod (fun _ => rfl) nofun hargs hdoes hclear).mono ?_)
  exact fun r rt' hshows hroom => hQ r _ (hshows hroom).received

/-- So does a method of an object. -/
theorem wp_callObject {obj : Ref} {method : MethodId} {args : List Arg} {entry : MethodEntry}
    {self : Option Object} {values : List ArgValue} {outcome : Except Stop CallValue}
    {Q : Ref → Runtime → Prop} (hmethod : methodEntry? method = some entry)
    (hself : desk.Means (.object obj) (.object self)) (hargs : List.Forall₂ desk.Means args values)
    (hdoes : Does files thread desk entry.behaviour self values outcome desk₁)
    (hclear : desk₁.raised = false)
    (hQ : ∀ r rt', Shows files thread { desk₁ with
      locals := (r, objectOf outcome) :: desk₁.locals, raised := raises outcome } rt' → Q r rt') :
    (Script.ask (.callObject obj method args)).wp (loopback thread) Q rt := by
  have hmeans : ∀ r, some obj = some r → desk.Means (.object r) (.object self) := by
    rintro _ ⟨⟩
    exact hself
  refine wp_answer
    ((ends_refOf_invoke (some obj) h hmethod nofun hmeans hargs hdoes hclear).mono ?_)
  exact fun r rt' hshows hroom => hQ r _ (hshows hroom).received

/-! ### Calls whose answer is no object -/

section Values

variable {obj cls : Ref} {method : MethodId} {args : List Arg} {entry : MethodEntry}
  {self : Option Object} {values : List ArgValue} (hmethod : methodEntry? method = some entry)
  (hself : desk.Means (.object obj) (.object self)) (hargs : List.Forall₂ desk.Means args values)
include hmethod hself hargs

/-- A method that gives a value, called through a class. -/
theorem ends_invoke_value {value : CallValue}
    (hdoes : Does files thread desk entry.behaviour self values (.ok value) desk₁) :
    Ends (invoke thread (some obj) (some cls) method args)
      (fun value' rt' => value' = value ∧ Shows files thread desk₁ rt') rt := by
  refine ends_invoke_on h hmethod nofun ?_ hargs hdoes ?_ ?_
  · rintro _ ⟨⟩
    exact hself
  · rintro _ rt₁ ⟨⟩ hafter
    exact ⟨rfl, hafter⟩
  · intro rt₁ hthrown
    exact absurd hthrown Bool.false_ne_true

/-- A call through a class that gives 32 bits. -/
theorem wp_callInt {value : Int32} {Q : Int32 → Runtime → Prop}
    (hdoes : Does files thread desk entry.behaviour self values (.ok (.int value)) desk₁)
    (hQ : ∀ rt', Shows files thread desk₁ rt' → Q value rt') :
    (Script.ask (.callInt obj cls method args)).wp (loopback thread) Q rt := by
  refine wp_answer (ends_bind ((ends_invoke_value h hmethod hself hargs hdoes).mono ?_))
  rintro _ rt' ⟨rfl, hafter⟩
  exact ends_pure fun _ => hQ _ hafter.received

/-- A call through a class that gives 64 bits. -/
theorem wp_callLong {value : Int64} {Q : Int64 → Runtime → Prop}
    (hdoes : Does files thread desk entry.behaviour self values (.ok (.long value)) desk₁)
    (hQ : ∀ rt', Shows files thread desk₁ rt' → Q value rt') :
    (Script.ask (.callLong obj cls method args)).wp (loopback thread) Q rt := by
  refine wp_answer (ends_bind ((ends_invoke_value h hmethod hself hargs hdoes).mono ?_))
  rintro _ rt' ⟨rfl, hafter⟩
  exact ends_pure fun _ => hQ _ hafter.received

/-- A call through a class that gives nothing. -/
theorem wp_callVoid {Q : Unit → Runtime → Prop}
    (hdoes : Does files thread desk entry.behaviour self values (.ok .void) desk₁)
    (hQ : ∀ rt', Shows files thread desk₁ rt' → Q () rt') :
    (Script.ask (.callVoid obj cls method args)).wp (loopback thread) Q rt := by
  refine wp_answer (ends_bind ((ends_invoke_value h hmethod hself hargs hdoes).mono ?_))
  rintro _ rt' ⟨rfl, hafter⟩
  exact ends_pure fun _ => hQ _ hafter.received

end Values

/-! ### Exceptions and references -/

/-- What is pending is what the desk says. -/
theorem wp_exceptionCheck {Q : Bool → Runtime → Prop}
    (hQ : ∀ rt', Shows files thread desk rt' → Q desk.raised rt') :
    (Script.ask .exceptionCheck).wp (loopback thread) Q rt := by
  refine wp_answer (ends_bind (ends_get (ends_pure fun _ => ?_)))
  rw [h.pending]
  exact hQ _ h.received

/-- A reference is made durable, since no fault is injected. -/
theorem wp_newGlobalRef {obj : Ref} {object : Object} {Q : Ref → Runtime → Prop}
    (hobj : desk.Means (.object obj) (.object (some object)))
    (hQ : ∀ r rt', r.isNull = false →
      Shows files thread { desk with owned := (r, object) :: desk.owned } rt' → Q r rt') :
    (Script.ask (.newGlobalRef obj)).wp (loopback thread) Q rt := by
  refine wp_answer (ends_bind (ends_get ?_))
  rw [show rt.faults.globalRefFaults.take? = none by rw [h.faults]; rfl]
  refine ends_bind (ends_resolve.mono ?_)
  intro found _ ⟨hsame, hrefers⟩
  rw [hsame, ArgValue.object.inj (h.resolved_eq hobj ⟨found, rfl, hrefers⟩)]
  refine ends_bind (ends_get (ends_bind (ends_set (ends_pure ?_))))
  intro hroom
  exact hQ _ _ (h.sound.token_not_null hroom) (h.promoted hroom object).received

/-- A local reference, or the null reference in place of one, is given back. -/
theorem wp_deleteLocalRef {r : Ref} {found : Option Object} {Q : Unit → Runtime → Prop}
    (newer : List (Ref × Option Object)) {older : List (Ref × Option Object)}
    (hlocals : desk.locals = newer ++ (r, found) :: older)
    (hQ : ∀ rt', Shows files thread { desk with locals := newer ++ older } rt' → Q () rt') :
    (Script.ask (.deleteLocalRef r)).wp (loopback thread) Q rt := by
  have hfewer : (newer ++ older).Sublist desk.locals := by
    rw [hlocals]
    exact (List.sublist_cons_self ..).append_left newer
  have hrest := h.forget hfewer
  have hleads := h.locals (r, found) (by simp [hlocals])
  refine wp_answer (ends_bind (ends_get ?_))
  -- the null reference is given back without a change
  cases found with
  | none =>
    obtain rfl : r = .null := hleads
    exact ends_set fun _ => hQ _ hrest.received
  | some object =>
    rw [hleads.remove h.sound]
    refine ends_set fun _ => hQ _ (Shows.received ?_)
    -- another reference that leads somewhere has another token
    have hothers : ∀ o ∈ newer ++ older, o.1 = r → o.1 = .null := by
      intro o hmem hsame
      have hdistinct := h.distinct
      rw [hlocals, List.pairwise_append, List.pairwise_cons] at hdistinct
      obtain ⟨_, ⟨hbefore, _⟩, hacross⟩ := hdistinct
      obtain hmem | hmem := List.mem_append.mp hmem
      · exact hacross o hmem (r, some object) (List.mem_cons_self ..) hsame
      · exact hsame.trans (hbefore o hmem hsame.symm)
    exact { hrest with
      sound := h.sound.erase r
      owned := by
        intro o hmem
        refine (h.owned o hmem).erase h.sound ?_
        rintro rfl
        -- a durable reference is not local
        have hboth := (h.owned o hmem).symm.trans hleads
        exact absurd (LiveRef.mk.inj (Option.some.inj hboth)).2.1 (by decide)
      locals := fun o hmem => (hrest.locals o hmem).erase h.sound (hothers o hmem) }

end Rules

end GridBridge.Managed
