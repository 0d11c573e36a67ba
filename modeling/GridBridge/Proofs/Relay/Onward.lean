import GridBridge.Proofs.Relay.Traffic

/-!
# Traffic beside the signals on their way

While one thread acts on the relay in one go, the signals of other threads stay where they are.
**`Onward`** says so of what happens in the meantime, and that no call comes into the registry by it.
-/

namespace GridBridge.Relay

open Protocol

variable {κ : Type} {t t' t'' : Traffic κ}

theorem Steps.trans (hsteps : Steps t t') (hmore : Steps t' t'') : Steps t t'' := by
  induction hsteps with
  | refl _ => exact hmore
  | head hnext _ ih => exact .head hnext (ih hmore)

/-- Steps that leave the signals on their way alone, issue nothing and put no call in the registry. -/
structure Onward (t t' : Traffic κ) : Prop where
  steps : Steps t t'
  underway : t'.underway = t.underway
  begun : t'.begun = t.begun
  issued : t'.issued = t.issued
  registered : ∀ id l, (id, l) ∈ t'.relay.inFlight → (id, l) ∈ t.relay.inFlight

namespace Onward

theorem refl (t : Traffic κ) : Onward t t := ⟨.refl t, rfl, rfl, rfl, fun _ _ hmem => hmem⟩

theorem trans (h : Onward t t') (h' : Onward t' t'') : Onward t t'' where
  steps := h.steps.trans h'.steps
  underway := h'.underway.trans h.underway
  begun := h'.begun.trans h.begun
  issued := h'.issued.trans h.issued
  registered id l hmem := h.registered id l (h'.registered id l hmem)

/-- A signal in one go: its four steps, or none if it is for no call in the registry. -/
theorem signal (t : Traffic κ) (id : CallId) (payload : Completion) :
    ∃ t', Onward t t' ∧ t'.relay = t.relay.signal id payload := by
  cases hknown : (t.relay.take id).1 with
  | none => exact ⟨t, .refl t, (signal_of_unknown hknown payload).symm⟩
  | some l =>
    let c : Courier := ⟨id, l, payload, .taken⟩
    refine ⟨_, ⟨.head (.take t id payload l hknown) (.head (.fill _ c (List.mem_cons_self ..) rfl)
      (.head (.push _ { c with stage := .filled } (List.mem_cons_self ..) rfl)
        (.head (.unpark _ { c with stage := .pushed } (List.mem_cons_self ..) rfl) (.refl _)))),
      ?_, rfl, rfl, fun id' l' hmem => (mem_inFlight_take.mp hmem).1⟩,
      (signal_of_known hknown payload).symm⟩
    simp [Traffic.advance, c]

theorem openLoop (t : Traffic κ) : Onward t { t with relay := t.relay.openLoop.2 } :=
  ⟨.head (.openLoop t) (.refl _), rfl, rfl, rfl, fun _ _ hmem => hmem⟩

theorem dropLoop (t : Traffic κ) (l : LoopId) : Onward t { t with relay := t.relay.dropLoop l } :=
  ⟨.head (.dropLoop t l) (.refl _), rfl, rfl, rfl, fun _ _ hmem => (mem_inFlight_dropLoop.mp hmem).1⟩

theorem deliver {l : LoopId} {id : CallId} {claimed : Option (κ × Completion)} {after : Relay κ}
    (hnext : t.relay.claimNext? l = some (id, claimed, after)) :
    ∃ t', Onward t t' ∧ t'.relay = after := by
  refine ⟨_, ⟨.head (.deliver t l id claimed after hnext) (.refl _), rfl, rfl, rfl, ?_⟩, rfl⟩
  obtain ⟨loop, rest, -, -, -, rfl⟩ := claimNext?_eq_some hnext
  exact fun _ _ hmem => hmem

end Onward

/-! ## An issue -/

/-- Steps that leave the signals on their way alone and begin so many calls. What they put in the
registry is among `new`. -/
structure Proceeds (t t' : Traffic κ) (calls : Nat) (new : CallId → Prop) : Prop where
  steps : Steps t t'
  underway : t'.underway = t.underway
  begun : t'.begun = t.begun + calls
  registered : ∀ id l, (id, l) ∈ t'.relay.inFlight → (id, l) ∈ t.relay.inFlight ∨ new id

theorem Onward.proceeds (h : Onward t t') (new : CallId → Prop) : Proceeds t t' 0 new :=
  ⟨h.steps, h.underway, h.begun, fun id l hmem => .inl (h.registered id l hmem)⟩

/-- **An issue in one go**, with whatever comes in between: one call more was begun, and it is in the
registry afterwards at most if it was not taken back. -/
theorem proceeds_issue {l : LoopId} {callback : κ} (halive : t.relay.Alive l) {called : Traffic κ}
    (honward : Onward { t with
      relay := (t.relay.begin l callback).2
      begun := t.begun + 1
      issued := ⟨t.relay.nextCall, l, callback⟩ :: t.issued } called) (refused : Bool) :
    ∃ t', Proceeds t t' 1 (fun id => refused = false ∧ id = t.relay.nextCall) ∧
      t'.relay = if refused then called.relay.withdraw l t.relay.nextCall else called.relay := by
  have hbegin := Steps.head (.issue t l callback halive) honward.steps
  -- between the registration and the answer only this number can have been added
  have hknown (id : CallId) (l' : LoopId) (hmem : (id, l') ∈ called.relay.inFlight) :
      (id, l') ∈ t.relay.inFlight ∨ id = t.relay.nextCall := by
    rcases List.mem_cons.mp (honward.registered id l' hmem) with hnew | hold
    · exact .inr (congrArg (·.1) hnew)
    · exact .inl hold
  cases refused with
  | false =>
    refine ⟨called, ⟨hbegin, honward.underway, honward.begun, fun id l' hmem => ?_⟩, rfl⟩
    exact (hknown id l' hmem).imp_right fun hnew => ⟨rfl, hnew⟩
  -- a refused call is withdrawn, which also takes it from the registry
  | true =>
    have hissued : ⟨t.relay.nextCall, l, callback⟩ ∈ called.issued := by
      rw [honward.issued]
      exact List.mem_cons_self ..
    refine ⟨_, ⟨hbegin.trans (.head (.fail called _ hissued) (.refl _)), honward.underway,
      honward.begun,
      fun id l' hmem => ?_⟩, rfl⟩
    obtain ⟨hmem, hother⟩ := mem_inFlight_withdraw.mp hmem
    exact (hknown id l' hmem).imp_right fun hnew => absurd hnew hother

end GridBridge.Relay
