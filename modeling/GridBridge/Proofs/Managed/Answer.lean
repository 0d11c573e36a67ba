import GridBridge.Proofs.Managed.Mirrors
import GridBridge.Proofs.Outcome

/-!
# Answers of the loopback runtime: within the contract

A call that the strict contract of the bridge takes is answered by the loopback runtime without a
fatal use, the answer is one that the contract counts on, and the ledger stays right about the
runtime (**`answer_honest`**). One lemma for each kind of call leads there. It holds as long as the
numbers of references have not come round.
-/

namespace GridBridge.Managed

open Protocol Seam

variable {α β : Type} {origin : Phase} {thread : ThreadId} {rt : Runtime} {ℓ : Ledger}

/-- The ledger after an answer, and what the contract says of it, unless numbers have come round. -/
def Honest (origin : Phase) (thread : ThreadId) (ℓ : Ledger) (request : Call)
    (reply : request.Reply) (rt : Runtime) : Prop :=
  rt.refs.next ≤ 2 ^ 64 →
    ∃ ℓ', (rules True).answers ℓ request reply ℓ' ∧ Mirrors origin thread rt ℓ'

/-- An answer is honest if it is in band, strict, and the ledger that records it is right. -/
theorem honest_of {request : Call} {reply : request.Reply} (p : Bool)
    (hband : InBand ℓ.pending request reply p) (hstrict : ℓ.Strict request reply p)
    (hmirrors : rt.refs.next ≤ 2 ^ 64 → Mirrors origin thread rt (ℓ.record request reply p)) :
    Honest origin thread ℓ request reply rt :=
  fun hroom => ⟨_, ⟨p, hband, fun _ => hstrict, rfl⟩, hmirrors hroom⟩

/-- An answer that hands nothing out keeps to the contract when it raises nothing else. -/
theorem inBand_quiet {p p' : Bool} {request : Call} {reply : request.Reply}
    (hleaves : request.leaves p p') (htruthful : request.truthful reply p)
    (hlocal : request.newLocal reply = .null) (hglobal : request.newGlobal reply = .null) :
    InBand p request reply p' :=
  ⟨hleaves, htruthful, fun _ _ => hlocal, fun _ => hglobal⟩

/-- Nothing is pending after the answer, so it may hand anything out. -/
theorem inBand_clear {p : Bool} {request : Call} {reply : request.Reply}
    (hleaves : request.leaves p false) (htruthful : request.truthful reply p) :
    InBand p request reply false :=
  ⟨hleaves, htruthful, nofun, nofun⟩

namespace Answering

/-! ## Checks and references -/

/-- A call that has to find nothing pending goes on if nothing is. -/
theorem yields_requireClear {activity : String} {Q : Unit → Runtime → Prop}
    (h : Mirrors origin thread rt ℓ) (hclear : ℓ.pending = false) (hQ : Q () rt) :
    Yields (requireClear thread activity) Q rt := by
  refine yields_bind (yields_get ?_)
  rw [h.pending, hclear]
  exact yields_pure hQ

/-- A reference that the ledger holds leads to an object, or it is null. -/
theorem yields_resolve {r : Ref} {Q : Option Object → Runtime → Prop}
    (h : Mirrors origin thread rt ℓ) (hr : ℓ.Holds r)
    (hQ : ∀ found, (r.isNull = true → found = none) →
      (∀ name, (r, name) ∈ ℓ.classes → found = some (.cls name)) → Q found rt) :
    Yields (resolve r) Q rt := by
  unfold resolve
  cases hnull : r.isNull with
  | true =>
    refine yields_pure (hQ none (fun _ => rfl) fun name hname => ?_)
    have hnonNull := (h.listed.known _ hname).nonNull
    exact absurd (hnull.symm.trans hnonNull) nofun
  | false =>
    obtain ⟨object, hget, hnames⟩ := h.listed.get?_of_holds hr hnull
    refine yields_bind (yields_get ?_)
    rw [hget]
    refine yields_pure (hQ _ (fun htrue => absurd (hnull.symm.trans htrue) nofun) ?_)
    exact fun name hname => congrArg some (hnames name (h.listed.known _ hname))

/-- The name of a class is found behind a reference that the ledger knows to be one of a class. -/
theorem yields_classNameAt {cls : Ref} {Q : String → Runtime → Prop}
    (h : Mirrors origin thread rt ℓ) (hcls : ℓ.Holds cls) (hknown : ∃ name, (cls, name) ∈ ℓ.classes)
    (hQ : ∀ name, (∀ known, (cls, known) ∈ ℓ.classes → known = name) → Q name rt) :
    Yields (classNameAt cls) Q rt := by
  obtain ⟨name, hname⟩ := hknown
  refine yields_bind (yields_resolve h hcls ?_)
  intro found _ hfound
  rw [hfound name hname]
  refine yields_pure (hQ name fun known hknown => ?_)
  have hsame := (hfound known hknown).symm.trans (hfound name hname)
  simpa using hsame

/-- A reference that is made is the next token. -/
theorem yields_makeRef {object : Object} {kind : RefKind} {Q : Ref → Runtime → Prop}
    (hQ : Q rt.refs.token { rt with refs := (rt.refs.insert object kind).2 }) :
    Yields (makeRef object kind) Q rt :=
  yields_bind (yields_get (yields_bind (yields_set (yields_pure hQ))))

/-- An exception that is raised is pending on the thread. -/
theorem yields_raise {cls : ThrownClass} {message : String} {Q : Unit → Runtime → Prop}
    (hQ : Q () (rt.raise thread { cls, message })) :
    Yields (raise thread cls message) Q rt :=
  yields_modify hQ

/-- A reference is given back if the table lets go of it. -/
theorem yields_deleteRef {r : Ref} {kind : RefKind} {refs : RefTable} {Q : Unit → Runtime → Prop}
    (hremove : rt.refs.remove r kind = .ok refs) (hQ : Q () { rt with refs }) :
    Yields (deleteRef r kind) Q rt := by
  refine yields_bind (yields_get ?_)
  rw [hremove]
  exact yields_set hQ

/-! ## Calls of methods -/

/-- The arguments are resolved if the ledger holds the references among them. -/
theorem yields_resolveArgs {args : List Arg} {Q : List ArgValue → Runtime → Prop}
    (h : Mirrors origin thread rt ℓ) (hargs : ∀ r ∈ Call.argRefs args, ℓ.Holds r)
    (hQ : ∀ values, Q values rt) : Yields (args.mapM resolveArg) Q rt := by
  induction args generalizing Q with
  | nil => exact yields_pure (hQ [])
  | cons arg rest ih =>
    rw [List.mapM_cons]
    have hrest : ∀ r ∈ Call.argRefs rest, ℓ.Holds r := by
      intro r hr
      obtain ⟨arg', hmem, harg'⟩ := List.mem_filterMap.mp hr
      exact hargs r (List.mem_filterMap.mpr ⟨arg', List.mem_cons_of_mem _ hmem, harg'⟩)
    -- the arguments after this one, whatever it resolves to
    have htail : ∀ value, Yields (do
        let values ← rest.mapM resolveArg
        pure (value :: values)) Q rt :=
      fun value => yields_bind (ih hrest fun values => yields_pure (hQ (value :: values)))
    refine yields_bind ?_
    cases arg with
    | int value => exact yields_pure (htail _)
    | long value => exact yields_pure (htail _)
    | object r =>
      have hr : ℓ.Holds r :=
        hargs r (List.mem_filterMap.mpr ⟨.object r, List.mem_cons_self .., rfl⟩)
      exact yields_bind (yields_resolve h hr fun found _ _ => yields_pure (htail _))

/-- A class that inherits a method passes for it. -/
theorem yields_checkClass {entry : MethodEntry} {cls : Option Ref} {Q : Unit → Runtime → Prop}
    (h : Mirrors origin thread rt ℓ)
    (hcls : ∀ c, cls = some c → ℓ.Holds c ∧
      ∃ name, (c, name) ∈ ℓ.classes ∧ isSubclass name entry.cls)
    (hQ : Q () rt) : Yields (checkClass entry cls) Q rt := by
  cases cls with
  | none => exact yields_pure hQ
  | some c =>
    obtain ⟨hheld, name, hname, hsub⟩ := hcls c rfl
    refine yields_bind (yields_classNameAt h hheld ⟨name, hname⟩ ?_)
    intro found hfound
    -- the class found is the one that the ledger knows, so the check passes
    rw [← hfound name hname, hsub]
    exact yields_pure hQ

/-- A method is run: it gives a value, or what it throws is pending. -/
theorem yields_runMethod {behaviour : Behaviour} {self : Option Object} {values : List ArgValue}
    {Q : CallValue → Runtime → Prop} (hvalue : ∀ value rt', rt.Calm rt' → Q value rt')
    (hthrown : ∀ thrown rt', rt.Calm rt' → Q .void (rt'.raise thread thrown)) :
    Yields (runMethod thread behaviour self values) Q rt := by
  obtain ⟨hcalm, hfatal⟩ := Code.tame_dispatch behaviour self values (Runtime.Calm.refl rt)
  refine yields_bind (yields_get (yields_bind (yields_set ?_)))
  -- a value, an exception, or a fatal use
  split
  · exact yields_pure (hvalue _ _ hcalm)
  · exact yields_bind (yields_modify (yields_pure (hthrown _ _ hcalm)))
  -- managed code never ends in a fatal use
  · rename_i cause hcause
    exact absurd hcause (hfatal cause)

/-- A method that may be called is run. It gives a value, or what it throws is pending. -/
theorem yields_invoke {receiver cls : Option Ref} {method : MethodId} {args : List Arg}
    {entry : MethodEntry} {Q : CallValue → Runtime → Prop} (h : Mirrors origin thread rt ℓ)
    (hclear : ℓ.pending = false) (hmethod : methodEntry? method = some entry)
    (hstatic : entry.spec.isStatic = receiver.isNone) (hreceiver : ∀ r, receiver = some r → ℓ.Holds r)
    (hcls : ∀ c, cls = some c → ℓ.Holds c ∧
      ∃ name, (c, name) ∈ ℓ.classes ∧ isSubclass name entry.cls)
    (hargs : ∀ r ∈ Call.argRefs args, ℓ.Holds r)
    (hvalue : ∀ value rt', Mirrors origin thread rt' ℓ → Q value rt')
    (hthrown : ∀ rt', Mirrors origin thread rt' { ℓ with pending := true } → Q .void rt') :
    Yields (invoke thread receiver cls method args) Q rt := by
  -- once everything is resolved, it only matters what the method does
  have hrun : ∀ self values, Yields (runMethod thread entry.behaviour self values) Q rt :=
    fun self values => yields_runMethod (fun value rt' hcalm => hvalue value rt' (h.calm hcalm))
      fun thrown rt' hcalm => hthrown _ ((h.calm hcalm).raise thrown)
  unfold invoke
  refine yields_bind (yields_requireClear h hclear ?_)
  rw [hmethod]
  dsimp only
  rw [if_neg (not_not.mpr hstatic)]
  refine yields_bind (yields_checkClass h hcls ?_)
  -- a static method has no receiver to be resolved
  cases receiver with
  | none =>
    exact yields_bind (yields_pure (yields_bind (yields_resolveArgs h hargs (hrun none))))
  | some r =>
    refine yields_bind (yields_resolve h (hreceiver r rfl) fun self _ _ => ?_)
    exact yields_bind (yields_resolveArgs h hargs (hrun self))

/-- A method whose value is handed out as a reference. -/
theorem yields_refOf_invoke {receiver : Option Ref} {method : MethodId} {args : List Arg}
    {Q : Ref → Runtime → Prop} (h : Mirrors origin thread rt ℓ) (hclear : ℓ.pending = false)
    (hmethod : Ledger.Denotes method receiver.isNone) (hreceiver : ∀ r, receiver = some r → ℓ.Holds r)
    (hargs : ∀ r ∈ Call.argRefs args, ℓ.Holds r)
    (hnull : ∀ rt' p, Mirrors origin thread rt' { ℓ with pending := p } → Q .null rt')
    (hmade : ∀ r rt', (rt'.refs.next ≤ 2 ^ 64 →
      Mirrors origin thread rt' { ℓ with locals := ℓ.locals + held r }) → Q r rt') :
    Yields (do refOf (← invoke thread receiver none method args)) Q rt := by
  obtain ⟨entry, hentry, hstatic⟩ := hmethod
  refine yields_bind (yields_invoke h hclear hentry hstatic hreceiver nofun hargs ?_ ?_)
  · intro value rt' h'
    cases value with
    | object found =>
      cases found with
      | none => exact yields_pure (hnull rt' ℓ.pending h')
      | some object =>
        refine yields_makeRef (hmade _ _ fun hroom => ?_)
        exact h'.makeLocal hroom object ℓ.classes fun c hc => .inl hc
    -- a value that is no object is handed out as a null reference
    | _ => exact yields_pure (hnull rt' ℓ.pending h')
  · exact fun rt' h' => yields_pure (hnull rt' true h')

/-- A method whose value is no reference, called through a class. -/
theorem yields_invokeThrough {obj cls : Ref} {method : MethodId} {args : List Arg}
    {Q : CallValue → Runtime → Prop} (h : Mirrors origin thread rt ℓ) (hclear : ℓ.pending = false)
    (hmethod : ℓ.Through cls method) (hobj : ℓ.Holds obj) (hcls : ℓ.Holds cls)
    (hargs : ∀ r ∈ Call.argRefs args, ℓ.Holds r)
    (hQ : ∀ value rt' p, Mirrors origin thread rt' { ℓ with pending := p } → Q value rt') :
    Yields (invoke thread (some obj) (some cls) method args) Q rt := by
  obtain ⟨entry, name, hentry, hstatic, hname, hsub⟩ := hmethod
  refine yields_invoke h hclear hentry hstatic ?_ ?_ hargs ?_ ?_
  · rintro _ ⟨⟩
    exact hobj
  · rintro _ ⟨⟩
    exact ⟨hcls, name, hname, hsub⟩
  · exact fun value rt' h' => hQ value rt' ℓ.pending h'
  · exact fun rt' h' => hQ .void rt' true h'

end Answering

open Answering

/-! ## One call after the other -/

section Calls

variable (h : Mirrors origin thread rt ℓ)

include h

/-- A class that is found is handed out, and one that is not leaves an exception. -/
theorem answer_findClass {name : String} (htakes : (rules True).takes ℓ (.findClass name)) :
    Yields (answer thread (.findClass name)) (Honest origin thread ℓ (.findClass name)) rt := by
  have hclear : ℓ.pending = false := (htakes.2.2.2.2 trivial).1 rfl
  refine yields_bind (yields_requireClear h hclear (yields_bind (yields_get ?_)))
  split
  · refine yields_makeRef (honest_of false (inBand_clear trivial trivial) trivial fun hroom => ?_)
    -- the new reference is known to lead to the class
    have hnull : rt.refs.token.isNull = false := h.listed.sound.token_not_null hroom
    have hmade := h.makeLocal hroom (.cls name) ((rt.refs.token, name) :: ℓ.classes) (by simp_all)
    simpa [Ledger.record, hnull, hclear] using hmade
  · refine yields_bind (yields_raise (yields_pure ?_))
    refine honest_of true (inBand_quiet trivial trivial rfl rfl) trivial fun _ => ?_
    simpa [Ledger.record] using h.raise { cls := .noClassDef, message := name }

/-- A method that is found is one of the class, and one that is not leaves an exception. -/
theorem answer_getMethodId {cls : Ref} {spec : MethodSpec}
    (htakes : (rules True).takes ℓ (.getMethodId cls spec)) :
    Yields (answer thread (.getMethodId cls spec))
      (Honest origin thread ℓ (.getMethodId cls spec)) rt := by
  obtain ⟨hup, huses, _, _, hstrict⟩ := htakes
  obtain ⟨hclear, htyped⟩ := hstrict trivial
  refine yields_bind (yields_requireClear h (hclear rfl) (yields_bind ?_))
  refine yields_classNameAt h (huses cls (by simp)) htyped fun name hname => ?_
  -- only a method that is found has to be one of the class
  cases hfound : findMethod name spec with
  | some id =>
    refine yields_pure (honest_of ℓ.pending (inBand_quiet trivial trivial rfl rfl) ?_ fun _ => ?_)
    · rintro _ ⟨⟩
      exact ⟨rfl, fun known hknown => hname known hknown ▸ hfound⟩
    · simpa [Ledger.record] using h
  | none =>
    refine yields_bind (yields_raise (yields_pure ?_))
    refine honest_of true (inBand_quiet trivial trivial rfl rfl) (by rintro _ ⟨⟩) fun _ => ?_
    simpa [Ledger.record] using h.raise { cls := .noSuchMethod, message := _ }

/-- The class of an object is handed out; behind the null reference there is none. -/
theorem answer_getObjectClass {obj : Ref} (htakes : (rules True).takes ℓ (.getObjectClass obj)) :
    Yields (answer thread (.getObjectClass obj))
      (Honest origin thread ℓ (.getObjectClass obj)) rt := by
  have hclear : ℓ.pending = false := (htakes.2.2.2.2 trivial).1 rfl
  refine yields_bind (yields_resolve h (htakes.2.1 obj (by simp)) fun found _ _ => ?_)
  cases found with
  | none =>
    refine yields_pure (honest_of false (inBand_clear trivial trivial) hclear.symm fun _ => ?_)
    simpa [Ledger.record, ← hclear] using h
  | some object =>
    refine yields_makeRef ?_
    refine honest_of false (inBand_clear trivial trivial) hclear.symm fun hroom => ?_
    have hmade := h.makeLocal hroom (.cls object.className) ℓ.classes fun c hc => .inl hc
    simpa [Ledger.record, hclear] using hmade

/-- A string is handed out. -/
theorem answer_newString {text : String} (htakes : (rules True).takes ℓ (.newString text)) :
    Yields (answer thread (.newString text)) (Honest origin thread ℓ (.newString text)) rt := by
  have hclear : ℓ.pending = false := (htakes.2.2.2.2 trivial).1 rfl
  refine yields_bind (yields_requireClear h hclear (yields_makeRef ?_))
  refine honest_of false (inBand_clear trivial trivial) trivial fun hroom => ?_
  have hmade := h.makeLocal hroom (.str text) ℓ.classes fun c hc => .inl hc
  simpa [Ledger.record, hclear] using hmade

/-- Reading a string hands nothing out, whatever is behind the reference. -/
theorem answer_getString {str : Ref} (htakes : (rules True).takes ℓ (.getString str)) :
    Yields (answer thread (.getString str)) (Honest origin thread ℓ (.getString str)) rt := by
  have hsame : ∀ reply, Honest origin thread ℓ (.getString str) reply rt := by
    intro reply
    refine honest_of ℓ.pending (inBand_quiet trivial trivial rfl rfl) rfl fun _ => ?_
    simpa [Ledger.record] using h
  refine yields_bind (yields_resolve h (htakes.2.1 str (by simp)) fun found _ _ => ?_)
  split <;> exact yields_pure (hsame _)

/-- A static method gives an object or nothing, or what it throws is pending. -/
theorem answer_callStatic {cls : Ref} {method : MethodId} {args : List Arg}
    (htakes : (rules True).takes ℓ (.callStatic cls method args)) :
    Yields (answer thread (.callStatic cls method args))
      (Honest origin thread ℓ (.callStatic cls method args)) rt := by
  obtain ⟨hup, huses, _, _, hstrict⟩ := htakes
  obtain ⟨hneeds, htyped⟩ := hstrict trivial
  have hclear : ℓ.pending = false := hneeds rfl
  refine yields_refOf_invoke h hclear htyped nofun
    (fun r hr => huses r (List.mem_cons_of_mem _ hr)) ?_ ?_
  · intro rt' p h'
    refine honest_of p (inBand_quiet trivial trivial rfl rfl) trivial fun _ => ?_
    simpa [Ledger.record] using h'
  · intro r rt' h'
    refine honest_of false (inBand_clear trivial trivial) trivial fun hroom => ?_
    simpa [Ledger.record, hclear] using h' hroom

/-- So does a method of an object. -/
theorem answer_callObject {obj : Ref} {method : MethodId} {args : List Arg}
    (htakes : (rules True).takes ℓ (.callObject obj method args)) :
    Yields (answer thread (.callObject obj method args))
      (Honest origin thread ℓ (.callObject obj method args)) rt := by
  obtain ⟨hup, huses, _, _, hstrict⟩ := htakes
  obtain ⟨hneeds, htyped⟩ := hstrict trivial
  have hclear : ℓ.pending = false := hneeds rfl
  refine yields_refOf_invoke h hclear htyped ?_
    (fun r hr => huses r (List.mem_cons_of_mem _ hr)) ?_ ?_
  · rintro _ ⟨⟩
    exact huses obj (List.mem_cons_self ..)
  · intro rt' p h'
    refine honest_of p (inBand_quiet trivial trivial rfl rfl) trivial fun _ => ?_
    simpa [Ledger.record] using h'
  · intro r rt' h'
    refine honest_of false (inBand_clear trivial trivial) trivial fun hroom => ?_
    simpa [Ledger.record, hclear] using h' hroom

/-- The three calls whose answer is no object. -/
theorem answer_callValue {request : Call} {obj cls : Ref} {method : MethodId} {args : List Arg}
    (hkind : request = .callInt obj cls method args ∨ request = .callLong obj cls method args ∨
      request = .callVoid obj cls method args)
    (htakes : (rules True).takes ℓ request) :
    Yields (answer thread request) (Honest origin thread ℓ request) rt := by
  -- such an answer records nothing but whether something is pending
  have hsame : ∀ reply rt' p, Mirrors origin thread rt' { ℓ with pending := p } →
      Honest origin thread ℓ request reply rt' := by
    intro reply rt' p h'
    rcases hkind with rfl | rfl | rfl <;>
    · refine honest_of p (inBand_quiet trivial trivial rfl rfl) trivial fun _ => ?_
      simpa [Ledger.record] using h'
  -- all three invoke the method in the same way
  have hinvoke : ∀ Q, (∀ value rt' p, Mirrors origin thread rt' { ℓ with pending := p } →
      Q value rt') → Yields (invoke thread (some obj) (some cls) method args) Q rt := by
    intro Q hQ
    obtain ⟨hup, huses, _, _, hstrict⟩ := htakes
    have huses : ∀ r ∈ obj :: cls :: Call.argRefs args, ℓ.Holds r := by
      rcases hkind with rfl | rfl | rfl <;> exact huses
    have hmay : ℓ.pending = false ∧ ℓ.Through cls method := by
      rcases hkind with rfl | rfl | rfl <;>
        exact ⟨(hstrict trivial).1 rfl, (hstrict trivial).2⟩
    refine yields_invokeThrough h hmay.1 hmay.2 (huses obj (by simp)) (huses cls (by simp)) ?_ hQ
    exact fun r hr => huses r (List.mem_cons_of_mem _ (List.mem_cons_of_mem _ hr))
  rcases hkind with rfl | rfl | rfl
  · refine yields_bind (hinvoke _ fun value rt' p h' => ?_)
    cases value <;> exact yields_pure (hsame _ rt' p h')
  · refine yields_bind (hinvoke _ fun value rt' p h' => ?_)
    cases value <;> exact yields_pure (hsame _ rt' p h')
  · refine yields_bind (hinvoke _ fun value rt' p h' => ?_)
    exact yields_pure (hsame _ rt' p h')

/-! ### Exceptions -/

/-- The answer to a check is what the ledger has written down. -/
theorem answer_exceptionCheck :
    Yields (answer thread .exceptionCheck) (Honest origin thread ℓ .exceptionCheck) rt := by
  refine yields_bind (yields_get (yields_pure ?_))
  refine honest_of ℓ.pending (inBand_quiet rfl h.pending rfl rfl) trivial fun _ => ?_
  simpa [Ledger.record] using h

/-- The exception that is pending is handed out, and stays pending. -/
theorem answer_exceptionOccurred :
    Yields (answer thread .exceptionOccurred) (Honest origin thread ℓ .exceptionOccurred) rt := by
  -- the one call that may hand an object out while something is pending
  have hband : ∀ r, InBand ℓ.pending .exceptionOccurred r ℓ.pending := fun r =>
    ⟨rfl, trivial, fun _ hother => absurd rfl hother, fun _ => rfl⟩
  refine yields_bind (yields_get ?_)
  cases rt.pending? thread with
  | none =>
    refine yields_pure (honest_of ℓ.pending (hband _) trivial fun _ => ?_)
    simpa [Ledger.record] using h
  | some thrown =>
    refine yields_makeRef (honest_of ℓ.pending (hband _) trivial fun hroom => ?_)
    have hmade := h.makeLocal hroom (.throwable thrown) ℓ.classes fun c hc => .inl hc
    simpa [Ledger.record] using hmade

/-- To describe an exception is no more than to count that it was. -/
theorem answer_exceptionDescribe :
    Yields (answer thread .exceptionDescribe) (Honest origin thread ℓ .exceptionDescribe) rt := by
  have hsame : ∀ rt', rt.Calm rt' → Honest origin thread ℓ .exceptionDescribe () rt' := by
    intro rt' hcalm
    refine honest_of ℓ.pending (inBand_quiet id trivial rfl rfl) trivial fun _ => ?_
    simpa [Ledger.record] using h.calm hcalm
  refine yields_bind (yields_get ?_)
  split
  · exact yields_modify (hsame _ ⟨rfl, rfl, rfl, rfl⟩)
  · exact yields_pure (hsame rt (Runtime.Calm.refl rt))

/-- Nothing is pending after that. -/
theorem answer_exceptionClear :
    Yields (answer thread .exceptionClear) (Honest origin thread ℓ .exceptionClear) rt := by
  refine yields_modify ?_
  refine honest_of false (inBand_clear rfl trivial) trivial fun _ => ?_
  simpa [Ledger.record] using h.clear

/-! ### References -/

/-- A durable reference is handed out unless a fault is injected, which leaves an exception. -/
theorem answer_newGlobalRef {obj : Ref} (htakes : (rules True).takes ℓ (.newGlobalRef obj)) :
    Yields (answer thread (.newGlobalRef obj)) (Honest origin thread ℓ (.newGlobalRef obj)) rt := by
  have hclear : ℓ.pending = false := (htakes.2.2.2.2 trivial).1 rfl
  refine yields_bind (yields_get ?_)
  -- an injected fault comes before the look behind the reference
  cases rt.faults.globalRefFaults.take? with
  | some left =>
    refine yields_bind (yields_set (yields_bind (yields_raise (yields_pure ?_))))
    refine honest_of true (inBand_quiet trivial trivial rfl rfl) trivial fun _ => ?_
    have hcalm : rt.Calm { rt with faults := { rt.faults with globalRefFaults := left } } :=
      ⟨rfl, rfl, rfl, rfl⟩
    simpa [Ledger.record] using (h.calm hcalm).raise _
  | none =>
    refine yields_bind (yields_resolve h (htakes.2.1 obj (by simp)) fun found _ hfound => ?_)
    cases found with
    | none =>
      refine yields_pure (honest_of false (inBand_clear trivial trivial) trivial fun _ => ?_)
      simpa [Ledger.record, ← hclear] using h
    | some object =>
      refine yields_makeRef (honest_of false (inBand_clear trivial trivial) trivial fun hroom => ?_)
      have hnull : rt.refs.token.isNull = false := h.listed.sound.token_not_null hroom
      -- what was known of the reference is known of the durable one
      have hknown : ∀ c ∈ Ledger.learn ℓ.classes (.newGlobalRef obj) rt.refs.token,
          c ∈ ℓ.classes ∨ c.1 = rt.refs.token ∧ object = .cls c.2 := by
        intro c hc
        simp only [Ledger.learn, hnull, Bool.false_eq_true, if_false] at hc
        rcases List.mem_append.mp hc with hc | hc
        · obtain ⟨⟨r, name⟩, hmem, rfl⟩ := List.mem_map.mp hc
          obtain ⟨hmem', hr⟩ := List.mem_filter.mp hmem
          obtain rfl : r = obj := by simpa using hr
          exact .inr ⟨rfl, Option.some.inj (hfound name hmem')⟩
        · exact .inl hc
      simpa [Ledger.record, hclear] using h.makeGlobal hroom object _ hknown

/-- A durable reference that the ledger holds can be given back. -/
theorem answer_deleteGlobalRef {obj : Ref} (htakes : (rules True).takes ℓ (.deleteGlobalRef obj)) :
    Yields (answer thread (.deleteGlobalRef obj))
      (Honest origin thread ℓ (.deleteGlobalRef obj)) rt := by
  obtain ⟨refs, hremove, h'⟩ := h.giveBack .globalRef htakes.2.2.2.1
  refine yields_deleteRef hremove ?_
  refine honest_of ℓ.pending (inBand_quiet rfl trivial rfl rfl) trivial fun _ => ?_
  simpa [Ledger.record] using h'

/-- So can a local one. -/
theorem answer_deleteLocalRef {obj : Ref} (htakes : (rules True).takes ℓ (.deleteLocalRef obj)) :
    Yields (answer thread (.deleteLocalRef obj))
      (Honest origin thread ℓ (.deleteLocalRef obj)) rt := by
  obtain ⟨refs, hremove, h'⟩ := h.giveBack .localRef htakes.2.2.1
  refine yields_deleteRef hremove ?_
  refine honest_of ℓ.pending (inBand_quiet rfl trivial rfl rfl) trivial fun _ => ?_
  simpa [Ledger.record] using h'

/-! ### The runtime as a whole -/

/-- A launch that makes a runtime is the first, and one that fails leaves the runtime calm. -/
theorem answer_launch {args : LaunchArgs} (htakes : (rules True).takes ℓ (.launch args)) :
    Yields (answer thread (.launch args)) (Honest origin thread ℓ (.launch args)) rt := by
  refine yields_bind (yields_get (yields_bind (yields_set (yields_pure ?_))))
  show Honest origin thread ℓ (.launch args) (rt.launch thread args).1 (rt.launch thread args).2
  rcases rt.launch_cases thread args with ⟨code, hcode, hcalm⟩ |
    ⟨hok, hidle, hrefs, hpending, hrefuse, hphase⟩
  · rw [hcode]
    refine honest_of ℓ.pending (inBand_quiet id trivial rfl rfl) (fun _ => nofun) fun _ => ?_
    simpa [Ledger.record] using h.calm hcalm
  · rw [hok]
    -- only an idle runtime takes a launch, and it was idle from the start
    have hvacant : ℓ.launches = 0 → ℓ.vacant = true := by
      intro hlaunches
      have horigin : rt.phase = origin := h.phase_eq htakes.1 hlaunches
      rw [h.vacant, ← horigin, hidle]
      rfl
    refine honest_of ℓ.pending (inBand_quiet id trivial rfl rfl) (fun hl _ => hvacant hl) fun _ => ?_
    have hafter : phaseAfter origin { ℓ with launches := ℓ.launches + 1, destroys := ℓ.destroys } =
        .running := by
      simp [phaseAfter, htakes.1]
    simpa [Ledger.record] using h.turn hrefs hpending hrefuse (hphase.trans hafter.symm)

/-- A thread is admitted or refused as the ledger was told at the beginning. -/
theorem answer_attach (htakes : (rules True).takes ℓ .attach) :
    Yields (answer thread .attach) (Honest origin thread ℓ .attach) rt := by
  refine yields_bind (yields_get (yields_bind (yields_set (yields_pure ?_))))
  show Honest origin thread ℓ .attach (rt.attach thread).1 (rt.attach thread).2
  refine honest_of ℓ.pending (inBand_quiet id trivial rfl rfl) ?_ fun _ => ?_
  · intro hlaunches
    rw [Runtime.isOk_attach, Runtime.admits, h.phase_eq htakes.1 hlaunches, h.admits]
  · simpa [Ledger.record] using h.calm (rt.calm_attach thread)

/-- The end of a runtime is counted, and nothing else changes that a ledger writes down. -/
theorem answer_destroy :
    Yields (answer thread .destroy) (Honest origin thread ℓ .destroy) rt := by
  refine yields_modify ?_
  refine honest_of ℓ.pending (inBand_quiet id trivial rfl rfl) trivial fun _ => ?_
  obtain ⟨hrefs, hpending, hrefuse, hphase⟩ := rt.destroy_spec
  have hafter : phaseAfter origin { ℓ with launches := ℓ.launches, destroys := ℓ.destroys + 1 } =
      .destroyed := by
    simp [phaseAfter]
  simpa [Ledger.record] using h.turn hrefs hpending hrefuse (hphase.trans hafter.symm)

/-- Natives are taken if each is the completion method, and any other leaves an exception. -/
theorem answer_registerNatives {cls : Ref} {methods : List NativeMethod}
    (htakes : (rules True).takes ℓ (.registerNatives cls methods)) :
    Yields (answer thread (.registerNatives cls methods))
      (Honest origin thread ℓ (.registerNatives cls methods)) rt := by
  obtain ⟨hup, huses, _, _, hstrict⟩ := htakes
  obtain ⟨hclear, htyped⟩ := hstrict trivial
  -- accepted, whether or not the entry among the methods is bound
  have hok : ∀ rt', rt.Calm rt' →
      Honest origin thread ℓ (.registerNatives cls methods) Status.ok rt' := by
    intro rt' hcalm
    refine honest_of ℓ.pending (inBand_quiet trivial trivial rfl rfl) (fun _ => rfl) fun _ => ?_
    simpa [Ledger.record] using (h.calm hcalm).noted
      (Ledger.note ℓ.registered (.registerNatives cls methods) Status.ok)
  refine yields_bind (yields_requireClear h (hclear rfl) (yields_bind ?_))
  refine yields_classNameAt h (huses cls (by simp)) htyped fun name _ => ?_
  cases methods.find? fun method => !isCompletionMethod name method with
  | some method =>
    refine yields_bind (yields_raise (yields_pure ?_))
    have hfailed : Status.err ≠ Status.ok := by decide
    refine honest_of true (inBand_quiet trivial trivial rfl rfl) (absurd · hfailed) fun _ => ?_
    simpa [Ledger.record] using (h.raise _).noted
      (Ledger.note ℓ.registered (.registerNatives cls methods) Status.err)
  | none =>
    dsimp only
    split
    · exact yields_bind (yields_modify (yields_pure (hok _ ⟨rfl, rfl, rfl, rfl⟩)))
    · exact yields_pure (hok rt (Runtime.Calm.refl rt))

end Calls

/-- **Every answer is within the contract.** A call that the contract takes is answered without a
fatal use, and the ledger stays right. -/
theorem answer_honest (h : Mirrors origin thread rt ℓ) {request : Call}
    (htakes : (rules True).takes ℓ request) :
    Yields (answer thread request) (Honest origin thread ℓ request) rt := by
  cases request with
  | launch args => exact answer_launch h htakes
  | attach => exact answer_attach h htakes
  | destroy => exact answer_destroy h
  | findClass name => exact answer_findClass h htakes
  | getMethodId cls spec => exact answer_getMethodId h htakes
  | getObjectClass obj => exact answer_getObjectClass h htakes
  | newString text => exact answer_newString h htakes
  | getString str => exact answer_getString h htakes
  | callStatic cls method args => exact answer_callStatic h htakes
  | callObject obj method args => exact answer_callObject h htakes
  | callInt obj cls method args => exact answer_callValue h (.inl rfl) htakes
  | callLong obj cls method args => exact answer_callValue h (.inr (.inl rfl)) htakes
  | callVoid obj cls method args => exact answer_callValue h (.inr (.inr rfl)) htakes
  | exceptionCheck => exact answer_exceptionCheck h
  | exceptionOccurred => exact answer_exceptionOccurred h
  | exceptionDescribe => exact answer_exceptionDescribe h
  | exceptionClear => exact answer_exceptionClear h
  | newGlobalRef obj => exact answer_newGlobalRef h htakes
  | deleteGlobalRef obj => exact answer_deleteGlobalRef h htakes
  | deleteLocalRef obj => exact answer_deleteLocalRef h htakes
  | registerNatives cls methods => exact answer_registerNatives h htakes

end GridBridge.Managed
