/-!
# Outcomes: how code with a state ends

Code over a state may end in a value or in an error, and what it changed until then stays. **`Yields`**
says that it ends in a value, and which; **`Leaves`** says what holds of the state however it ends, and
**`Comes`** what holds in either case.
-/

namespace GridBridge

variable {ε σ α β : Type} {x : ExceptT ε (StateM σ) α} {f : α → ExceptT ε (StateM σ) β} {s : σ}

/-! ## Step by step -/

/-- Code goes on from the value of its first part. -/
theorem run_bind_of_ok {value : α} {s' : σ} (h : x.run.run s = (.ok value, s')) :
    (x >>= f).run.run s = (f value).run.run s' := by
  rw [ExceptT.run_bind, StateT.run_bind, h]
  rfl

/-- Code ends with its first part if that ends in an error. -/
theorem run_bind_of_error {e : ε} {s' : σ} (h : x.run.run s = (.error e, s')) :
    (x >>= f).run.run s = (.error e, s') := by
  rw [ExceptT.run_bind, StateT.run_bind, h]
  rfl

/-- Looking at the state changes nothing: what follows runs on the state that it saw. -/
theorem run_get_bind {g : σ → ExceptT ε (StateM σ) β} : (get >>= g).run.run s = (g s).run.run s :=
  rfl

/-! ## Ending in a value -/

/-- The code ends in a value, and value and state satisfy the postcondition. -/
def Yields (x : ExceptT ε (StateM σ) α) (Q : α → σ → Prop) (s : σ) : Prop :=
  ∃ value s', x.run.run s = (.ok value, s') ∧ Q value s'

theorem yields_pure {value : α} {Q : α → σ → Prop} (h : Q value s) :
    Yields (pure value : ExceptT ε (StateM σ) α) Q s :=
  ⟨value, s, rfl, h⟩

theorem yields_get {Q : σ → σ → Prop} (h : Q s s) :
    Yields (get : ExceptT ε (StateM σ) σ) Q s :=
  ⟨s, s, rfl, h⟩

theorem yields_set {s' : σ} {Q : PUnit → σ → Prop} (h : Q ⟨⟩ s') :
    Yields (set s' : ExceptT ε (StateM σ) PUnit) Q s :=
  ⟨⟨⟩, s', rfl, h⟩

theorem yields_modify {g : σ → σ} {Q : PUnit → σ → Prop} (h : Q ⟨⟩ (g s)) :
    Yields (modify g : ExceptT ε (StateM σ) PUnit) Q s :=
  ⟨⟨⟩, g s, rfl, h⟩

/-- A step that reads a value off the state and changes it yields that value. -/
theorem yields_modifyGet {g : σ → α × σ} {Q : α → σ → Prop} (h : Q (g s).1 (g s).2) :
    Yields (modifyGet g : ExceptT ε (StateM σ) α) Q s :=
  ⟨(g s).1, (g s).2, rfl, h⟩

/-- Code in a row: the first has to end in a state where the second ends well. -/
theorem yields_bind {Q : β → σ → Prop} (h : Yields x (fun value => Yields (f value) Q) s) :
    Yields (x >>= f) Q s := by
  obtain ⟨value, s', hrun, value', s'', hrun', hQ⟩ := h
  refine ⟨value', s'', ?_, hQ⟩
  rw [ExceptT.run_bind, StateT.run_bind, hrun]
  exact hrun'

/-- A weaker postcondition will do. -/
theorem Yields.mono {Q Q' : α → σ → Prop} (h : Yields x Q s)
    (hQ : ∀ value s', Q value s' → Q' value s') : Yields x Q' s := by
  obtain ⟨value, s', hrun, hvalue⟩ := h
  exact ⟨value, s', hrun, hQ value s' hvalue⟩

/-! ## Whatever the end -/

/-- The state that the code leaves behind, however it ends, satisfies the postcondition. -/
def Leaves (x : ExceptT ε (StateM σ) α) (P : σ → Prop) (s : σ) : Prop := P (x.run.run s).2

variable {P : σ → Prop}

/-- A run that is known leaves what its code leaves. -/
theorem Leaves.of_run {outcome : Except ε α} (h : Leaves x P s) (hran : x.run.run s = (outcome, s')) :
    P s' := by
  unfold Leaves at h
  rw [hran] at h
  exact h

/-- What holds of the state at the end of code that ends in a value holds of what it leaves. -/
theorem Yields.leaves (h : Yields x (fun _ => P) s) : Leaves x P s := by
  obtain ⟨value, s', hran, hP⟩ := h
  unfold Leaves
  rw [hran]
  exact hP

/-- What the code leaves may be weakened. -/
theorem leaves_mono {P' : σ → Prop} (h : Leaves x P s) (hP : ∀ s', P s' → P' s') : Leaves x P' s :=
  hP _ h

theorem leaves_pure {value : α} (h : P s) :
    Leaves (pure value : ExceptT ε (StateM σ) α) P s := h

/-- An error leaves the state as it is. -/
theorem leaves_throw {e : ε} (h : P s) : Leaves (throw e : ExceptT ε (StateM σ) α) P s := h

theorem leaves_set {s' : σ} (h : P s') :
    Leaves (set s' : ExceptT ε (StateM σ) PUnit) P s := h

theorem leaves_modify {g : σ → σ} (h : P (g s)) :
    Leaves (modify g : ExceptT ε (StateM σ) PUnit) P s := h

theorem leaves_modifyGet {g : σ → α × σ} (h : P (g s).2) :
    Leaves (modifyGet g : ExceptT ε (StateM σ) α) P s := h

/-- Code that looks at the state first. -/
theorem leaves_get {g : σ → ExceptT ε (StateM σ) β} (h : Leaves (g s) P s) :
    Leaves (get >>= g) P s := h

/-- What both parts keep, both in a row keep. -/
theorem leaves_bind (hx : Leaves x P s) (hf : ∀ value s', P s' → Leaves (f value) P s') :
    Leaves (x >>= f) P s := by
  unfold Leaves at hx ⊢
  rw [ExceptT.run_bind, StateT.run_bind]
  cases houtcome : x.run.run s with
  | mk outcome s' =>
    rw [houtcome] at hx
    cases outcome with
    | ok value => exact hf value s' hx
    | error e => exact hx

/-- Code whose first part is known to end in a value. -/
theorem leaves_next {value : α} {s' : σ} (hx : x.run.run s = (.ok value, s'))
    (hf : Leaves (f value) P s') : Leaves (x >>= f) P s := by
  unfold Leaves
  rw [ExceptT.run_bind, StateT.run_bind, hx]
  exact hf

/-- What is left at the end is left by the last part, once the first has ended in a value. -/
theorem Leaves.after {value : α} {s' : σ} (h : Leaves (x >>= f) P s)
    (hx : x.run.run s = (.ok value, s')) : Leaves (f value) P s' := by
  unfold Leaves at h ⊢
  rwa [run_bind_of_ok hx] at h

/-- What has to be done at the end is done however the code before it ends. -/
theorem run_finally {y : ExceptT ε (StateM σ) β} :
    (try x finally y : ExceptT ε (StateM σ) α).run.run s =
      (match (x.run.run s).1, (y.run.run (x.run.run s).2).1 with
        | .ok value, .ok _ => .ok value
        | .error e, .ok _ => .error e
        | _, .error e => .error e, (y.run.run (x.run.run s).2).2) := by
  cases hx : x.run.run s with
  | mk outcome s' =>
    cases hy : y.run.run s' with
    | mk last s'' =>
      simp only [tryFinally, MonadFinally.tryFinally', ExceptT.run, ExceptT.mk, StateT.run] at *
      simp only [Functor.map, ExceptT.map, ExceptT.mk, bind, StateT.bind, hx]
      -- one run for each way in which the two parts may end
      cases outcome <;> cases last <;> simp only [hy] <;> rfl

/-- The last part comes after the first however that ended, so what it leaves is what is left. -/
theorem leaves_finally {y : ExceptT ε (StateM σ) β}
    (h : Leaves x (fun s' => Leaves y P s') s) : Leaves (try x finally y) P s := by
  unfold Leaves
  rw [run_finally]
  exact h

/-- If both end in a value, the first value counts. -/
theorem yields_finally {y : ExceptT ε (StateM σ) β} {Q : α → σ → Prop}
    (h : Yields x (fun value s' => Yields y (fun _ => Q value) s') s) :
    Yields (try x finally y) Q s := by
  obtain ⟨value, s', hx, last, s'', hy, hQ⟩ := h
  refine ⟨value, s'', ?_, hQ⟩
  rw [run_finally, hx, hy]

/-- Code that ends in a value went through a value of its first part. -/
theorem run_bind_eq_ok {value : β} {s'' : σ} (h : (x >>= f).run.run s = (.ok value, s'')) :
    ∃ first s', x.run.run s = (.ok first, s') ∧ (f first).run.run s' = (.ok value, s'') := by
  rw [ExceptT.run_bind, StateT.run_bind] at h
  cases hx : x.run.run s with
  | mk outcome s' =>
    rw [hx] at h
    cases outcome with
    | ok first => exact ⟨first, s', rfl, h⟩
    -- an error of the first part would be the error of both
    | error e => cases h

/-! ## If it ends in a value -/

/-- If the code ends in a value, value and state satisfy the postcondition. -/
def Ends (x : ExceptT ε (StateM σ) α) (Q : α → σ → Prop) (s : σ) : Prop :=
  ∀ value s', x.run.run s = (.ok value, s') → Q value s'

/-- A value that is returned ends in itself. -/
theorem ends_pure {value : α} {Q : α → σ → Prop} (h : Q value s) :
    Ends (pure value : ExceptT ε (StateM σ) α) Q s := by
  intro value' s' hrun
  cases hrun
  exact h

/-- An error ends in no value, so nothing is asked of it. -/
theorem ends_throw {e : ε} {Q : α → σ → Prop} :
    Ends (throw e : ExceptT ε (StateM σ) α) Q s := by
  intro value s' hrun
  cases hrun

theorem ends_get {Q : σ → σ → Prop} (h : Q s s) :
    Ends (get : ExceptT ε (StateM σ) σ) Q s := by
  intro value s' hrun
  cases hrun
  exact h

theorem ends_set {s' : σ} {Q : PUnit → σ → Prop} (h : Q ⟨⟩ s') :
    Ends (set s' : ExceptT ε (StateM σ) PUnit) Q s := by
  intro value s'' hrun
  cases hrun
  exact h

theorem ends_modify {g : σ → σ} {Q : PUnit → σ → Prop} (h : Q ⟨⟩ (g s)) :
    Ends (modify g : ExceptT ε (StateM σ) PUnit) Q s := by
  intro value s' hrun
  cases hrun
  exact h

/-- Code in a row ends in a value only if both parts do, one after the other. -/
theorem ends_bind {Q : β → σ → Prop} (h : Ends x (fun value => Ends (f value) Q) s) :
    Ends (x >>= f) Q s := by
  intro value s'' hrun
  obtain ⟨first, s', hfirst, hrest⟩ := run_bind_eq_ok hrun
  exact h first s' hfirst value s'' hrest

/-- A weaker postcondition will do. -/
theorem Ends.mono {Q Q' : α → σ → Prop} (h : Ends x Q s)
    (hQ : ∀ value s', Q value s' → Q' value s') : Ends x Q' s :=
  fun value s' hrun => hQ value s' (h value s' hrun)

/-- Code that ends in a value satisfies what holds if it does. -/
theorem Yields.of_ends {Q Q' : α → σ → Prop} (h : Yields x Q s) (h' : Ends x Q' s) :
    Yields x (fun value s' => Q value s' ∧ Q' value s') s := by
  obtain ⟨value, s', hrun, hQ⟩ := h
  exact ⟨value, s', hrun, hQ, h' value s' hrun⟩

/-- Code that ends in a value ends in one that its state goes with. -/
theorem Yields.of_leaves {Q : α → σ → Prop} (h : Yields x Q s) (hP : Leaves x P s) :
    Yields x (fun value s' => Q value s' ∧ P s') s := by
  obtain ⟨value, s', hrun, hQ⟩ := h
  unfold Leaves at hP
  rw [hrun] at hP
  exact ⟨value, s', hrun, hQ, hP⟩

/-! ## Either way -/

/-- If the code ends in a value, it satisfies the one postcondition with the state, and if it ends in
an error, that satisfies the other. -/
def Comes (x : ExceptT ε (StateM σ) α) (Q : α → σ → Prop) (E : ε → σ → Prop) (s : σ) : Prop :=
  match x.run.run s with
  | (.ok value, s') => Q value s'
  | (.error e, s') => E e s'

section Comes

variable {Q : α → σ → Prop} {E : ε → σ → Prop}

theorem comes_pure {value : α} (h : Q value s) :
    Comes (pure value : ExceptT ε (StateM σ) α) Q E s := h

/-- An error comes to its own postcondition, in the state as it is. -/
theorem comes_throw {e : ε} (h : E e s) : Comes (throw e : ExceptT ε (StateM σ) α) Q E s := h

theorem comes_set {s' : σ} {Q : PUnit → σ → Prop} (h : Q ⟨⟩ s') :
    Comes (set s' : ExceptT ε (StateM σ) PUnit) Q E s := h

theorem comes_modify {g : σ → σ} {Q : PUnit → σ → Prop} (h : Q ⟨⟩ (g s)) :
    Comes (modify g : ExceptT ε (StateM σ) PUnit) Q E s := h

/-- Code that looks at the state first. -/
theorem comes_get {g : σ → ExceptT ε (StateM σ) α} (h : Comes (g s) Q E s) :
    Comes (get >>= g) Q E s := h

/-- An error of the first part is the error of both, and a value of it is what the second goes on with.
-/
theorem comes_bind {Q : β → σ → Prop} (h : Comes x (fun value => Comes (f value) Q E) E s) :
    Comes (x >>= f) Q E s := by
  unfold Comes at h ⊢
  rw [ExceptT.run_bind, StateT.run_bind]
  cases hx : x.run.run s with
  | mk outcome s' =>
    rw [hx] at h
    cases outcome with
    | ok value => exact h
    | error e => exact h

/-- Code whose first part is known to end in a value. -/
theorem comes_next {Q : β → σ → Prop} {value : α} {s' : σ} (hx : x.run.run s = (.ok value, s'))
    (hf : Comes (f value) Q E s') : Comes (x >>= f) Q E s := by
  apply comes_bind
  unfold Comes
  rw [hx]
  exact hf

/-- Weaker postconditions will do. -/
theorem Comes.mono {Q' : α → σ → Prop} {E' : ε → σ → Prop} (h : Comes x Q E s)
    (hQ : ∀ value s', Q value s' → Q' value s') (hE : ∀ e s', E e s' → E' e s') :
    Comes x Q' E' s := by
  unfold Comes at h ⊢
  cases hx : x.run.run s with
  | mk outcome s' =>
    rw [hx] at h
    cases outcome with
    | ok value => exact hQ value s' h
    | error e => exact hE e s' h

/-- What holds of the state however the code ends is what it leaves. -/
theorem Comes.leaves (h : Comes x (fun _ => P) (fun _ => P) s) : Leaves x P s := by
  unfold Comes at h
  unfold Leaves
  cases hx : x.run.run s with
  | mk outcome s' =>
    rw [hx] at h
    cases outcome <;> exact h

/-- What the code leaves holds of the state, be it after a value or after an error. -/
theorem Leaves.comes (h : Leaves x P s) : Comes x (fun _ => P) (fun _ => P) s := by
  unfold Leaves at h
  unfold Comes
  cases hx : x.run.run s with
  | mk outcome s' =>
    rw [hx] at h
    cases outcome <;> exact h

/-- The errors may be left out of account. -/
theorem Comes.ends (h : Comes x Q E s) : Ends x Q s := by
  intro value s' hran
  unfold Comes at h
  rw [hran] at h
  exact h

/-- Of an error nothing is said. -/
theorem Ends.comes (h : Ends x Q s) : Comes x Q (fun _ _ => True) s := by
  unfold Comes
  cases hran : x.run.run s with
  | mk outcome s' =>
    cases outcome with
    | ok value => exact h value s' hran
    | error e => exact trivial

end Comes

end GridBridge
